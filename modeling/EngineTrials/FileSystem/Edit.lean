import EngineTrials.FileSystem.Basic

/-! Changing a file system: putting an entry where names lead, taking one away, and writing a file
through a path the way an operating system does. -/

namespace EngineTrials

def setChild (name : String) (e : Entry) : List (String × Entry) → List (String × Entry)
  | [] => [(name, e)]
  | (n, old) :: rest => if n = name then (name, e) :: rest else (n, old) :: setChild name e rest

/-- The children of an entry; none if it is no folder. -/
def Entry.children : Entry → List (String × Entry)
  | .folder children => children
  | _ => []

/-- The entry with `e` where names lead. Folders on the way are made, and a folder that is there
already is not replaced by an empty one. -/
def Entry.put (e : Entry) : List String → Entry → Entry
  | [], old =>
    match e, old with
    | .folder [], .folder children => .folder children
    | _, _ => e
  | name :: rest, old =>
    let inner := (old.child? name).getD (.folder [])
    .folder (setChild name (Entry.put e rest inner) old.children)

/-- The entry without what is where names lead. -/
def Entry.without : List String → Entry → Entry
  | [], e => e
  | [name], .folder children => .folder (children.filter fun c => c.1 != name)
  | name :: rest, .folder children =>
    match children.lookup name with
    | some inner => .folder (setChild name (Entry.without rest inner) children)
    | none => .folder children
  | _, e => e

namespace FileSystem

/-- The file system without any entry, but with a working folder. -/
def emptyAt (workingFolder : Location) : FileSystem :=
  { children := (Entry.put (.folder []) workingFolder.names (.folder [])).children, workingFolder }

/-- The file system with an entry at a location. -/
def put (fs : FileSystem) (l : Location) (e : Entry) : FileSystem :=
  { fs with children := (Entry.put e l.names (.folder fs.children)).children }

/-- The file system without what is at a location. -/
def without (fs : FileSystem) (l : Location) : FileSystem :=
  { fs with children := (Entry.without l.names (.folder fs.children)).children }

/-- The location at which a file is written for steps from `here`: a link at the end of the steps is
followed, even to a file that is not there yet. -/
def target (fs : FileSystem) : Nat → Location → List Step → Except FileFault Location
  | links, here, steps =>
    match steps.getLast? with
    | some (.name name) =>
      match fs.follow linkLimit here steps.dropLast with
      | .error fault => .error fault
      | .ok parent =>
        match fs.entry? parent with
        | some (.folder children) =>
          match children.lookup name with
          | some (.folder _) => .error .isFolder
          | some (.link text) =>
            match links with
            | 0 => .error .tooManyLinks
            | links + 1 =>
              let path : Path := ⟨text⟩
              target fs links (if path.isAbsolute then ⟨[]⟩ else parent) path.steps
          | _ => if nameLimit < name.utf8ByteSize then .error .nameTooLong else .ok (parent.child name)
        | _ => .error .notFolder
    | _ =>
      match fs.follow linkLimit here (steps.dropLast.dropLast) with
      | .error fault => .error fault
      | .ok _ => .error .isFolder

def write (fs : FileSystem) (p : Path) (content : List UInt8) : Except FileFault FileSystem :=
  if '\x00' ∈ p.text.toList then .error .zeroInPath
  else if p.text.isEmpty then .error .missing
  else
    match fs.target linkLimit (if p.isAbsolute then ⟨[]⟩ else fs.workingFolder) p.steps with
    | .error fault => .error fault
    | .ok l => .ok (fs.put l (.file content))

end FileSystem

end EngineTrials
