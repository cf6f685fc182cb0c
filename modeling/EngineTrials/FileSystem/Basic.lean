import EngineTrials.Path
import EngineTrials.Text.Utf8

/-! A file system as a value: folders, regular files with their bytes, and symbolic links. A path is
located by following it component by component, links included, which ends because no more than
forty links are followed. Every folder can be listed, every file can be read, and a path may be of
any length: no limit of an operating system on the path of a call, given or resolved, is imposed, so
that one function locates what is opened and what is made canonical.

`Entry.walk` is what a walk of a tree yields. As every folder can be listed, it yields no error.
`mem_filesBelow_of_at?` says that a walk misses no file. -/

namespace EngineTrials

open Text (pieces)

/-- What a name in a folder stands for. -/
inductive Entry
  | file (content : List UInt8)
  | link (target : String)
  | folder (children : List (String × Entry))

/-- Why a path cannot be located or read. -/
inductive FileFault
  | missing
  | notFolder
  | isFolder
  | tooManyLinks
  | nameTooLong
  | zeroInPath
  | notText
  deriving DecidableEq, Repr

/-- The text that the operating system, or the reading of text, gives for a fault. -/
def FileFault.message : FileFault → String
  | .missing => "No such file or directory (os error 2)"
  | .notFolder => "Not a directory (os error 20)"
  | .isFolder => "Is a directory (os error 21)"
  | .tooManyLinks => "Too many levels of symbolic links (os error 40)"
  | .nameTooLong => "File name too long (os error 36)"
  | .zeroInPath => "file name contained an unexpected NUL byte"
  | .notText => "stream did not contain valid UTF-8"

/-- A place in the tree, by the names that lead to it from the root: no links, no dots. -/
structure Location where
  names : List String
  deriving DecidableEq, Repr, Inhabited

def Location.toPath (l : Location) : Path :=
  match l.names with
  | [] => ⟨"/"⟩
  | names => ⟨names.foldl (fun text name => text ++ "/" ++ name) ""⟩

/-- The location of the folder above; the root is above itself. -/
def Location.up (l : Location) : Location := ⟨l.names.dropLast⟩

/-- The location of a name in a folder. -/
def Location.child (l : Location) (name : String) : Location := ⟨l.names ++ [name]⟩

/-- What a name in an entry stands for. -/
def Entry.child? (name : String) : Entry → Option Entry
  | .folder children => children.lookup name
  | _ => none

def Entry.at? : List String → Entry → Option Entry
  | [], e => some e
  | name :: rest, e => (e.child? name).bind (Entry.at? rest)

def sortByName {α : Type} (children : List (String × α)) : List (String × α) :=
  children.mergeSort fun a b => decide (a.1 ≤ b.1)

mutual

/-- What a walk finds at and below an entry, with the names that lead to it: a folder right before
what is in it, and what is in it by name. Links are found and not followed. -/
def Entry.walk : Entry → List (List String × Entry)
  | .folder children =>
    ([], .folder children) :: (sortByName (Entry.walks children)).flatMap fun inner =>
      inner.2.map fun found => (inner.1 :: found.1, found.2)
  | e => [([], e)]

/-- The walks of the entries of a folder. -/
def Entry.walks : List (String × Entry) → List (String × List (List String × Entry))
  | [] => []
  | (name, e) :: rest => (name, e.walk) :: Entry.walks rest

end

def Entry.isFile : Entry → Bool
  | .file _ => true
  | _ => false

/-- The names that lead to the regular files that a walk finds. -/
def Entry.filesBelow (e : Entry) : List (List String) :=
  (e.walk.filter fun found => found.2.isFile).map Prod.fst

/-- A file system and the folder that relative paths start from. -/
structure FileSystem where
  children : List (String × Entry)
  workingFolder : Location := ⟨[]⟩

/-- A step of a path. -/
inductive Step
  | stay
  | up
  | name (text : String)
  deriving DecidableEq, Repr

/-- The step that a piece between slashes stands for. -/
def Step.ofPiece (piece : List Char) : Step :=
  if piece = [] ∨ piece = ['.'] then .stay
  else if piece = ['.', '.'] then .up
  else .name (String.ofList piece)

/-- The steps of a path after the slash that makes it absolute. -/
def Path.steps (p : Path) : List Step :=
  (pieces '/' (if p.isAbsolute then p.text.toList.drop 1 else p.text.toList)).map Step.ofPiece

namespace FileSystem

def linkLimit : Nat := 40

def nameLimit : Nat := 255

def entry? (fs : FileSystem) (l : Location) : Option Entry :=
  Entry.at? l.names (.folder fs.children)

/-- The location that steps lead to from `here`; what comes after a link is left to `jump`. -/
def walk (fs : FileSystem) (jump : Location → List Step → Except FileFault Location) :
    Location → List Step → Except FileFault Location
  | here, [] => .ok here
  | here, step :: rest =>
    match fs.entry? here with
    | some (.folder children) =>
      match step with
      | .stay => walk fs jump here rest
      | .up => walk fs jump here.up rest
      | .name name =>
        if nameLimit < name.utf8ByteSize then .error .nameTooLong
        else
          match children.lookup name with
          | none => .error .missing
          | some (.link target) =>
            let path : Path := ⟨target⟩
            jump (if path.isAbsolute then ⟨[]⟩ else here) (path.steps ++ rest)
          | some _ => walk fs jump (here.child name) rest
    | _ => .error .notFolder

/-- The location that steps lead to from `here`, with at most `links` links followed. -/
def follow (fs : FileSystem) : Nat → Location → List Step → Except FileFault Location
  | 0 => fs.walk fun _ _ => .error .tooManyLinks
  | links + 1 => fs.walk (follow fs links)

/-- The location of a path: all links followed, all dots gone. -/
def locate (fs : FileSystem) (p : Path) : Except FileFault Location :=
  if '\x00' ∈ p.text.toList then .error .zeroInPath
  else if p.text.isEmpty then .error .missing
  else fs.follow linkLimit (if p.isAbsolute then ⟨[]⟩ else fs.workingFolder) p.steps

/-- The bytes of the file at a location. -/
def bytesAt (fs : FileSystem) (l : Location) : Except FileFault (List UInt8) :=
  match fs.entry? l with
  | some (.file content) => .ok content
  | some (.folder _) => .error .isFolder
  | _ => .error .missing

/-- The text of the file at a location. -/
def textAt (fs : FileSystem) (l : Location) : Except FileFault String :=
  match fs.bytesAt l with
  | .error fault => .error fault
  | .ok content =>
    match Text.Utf8.decode? content with
    | some text => .ok (String.ofList text)
    | none => .error .notText

/-- The text of the file that a path leads to. -/
def readText (fs : FileSystem) (p : Path) : Except FileFault String :=
  match fs.locate p with
  | .error fault => .error fault
  | .ok l => fs.textAt l

/-- Whether a path leads to a regular file. -/
def isFile (fs : FileSystem) (p : Path) : Bool :=
  match fs.locate p with
  | .ok l => (fs.bytesAt l).isOk
  | .error _ => false

def hasPath (fs : FileSystem) (p : Path) : Bool := (fs.locate p).isOk

/-- The regular files of the whole file system. -/
def files (fs : FileSystem) : List Location :=
  (Entry.filesBelow (.folder fs.children)).map Location.mk

/-- The regular files that a walk from a path finds, by the names that lead to them. The one error
of a path that leads nowhere is passed over. -/
def filesBelow (fs : FileSystem) (p : Path) : List (List String) :=
  match fs.locate p with
  | .ok l => ((fs.entry? l).map Entry.filesBelow).getD []
  | .error _ => []

end FileSystem

theorem mem_sortByName {α : Type} {children : List (String × α)} {c : String × α} :
    c ∈ sortByName children ↔ c ∈ children := by
  simp [sortByName]

theorem sortByName_map {α β : Type} (f : α → β) (children : List (String × α)) :
    sortByName (children.map fun c => (c.1, f c.2)) =
      (sortByName children).map fun c => (c.1, f c.2) := by
  unfold sortByName
  rw [List.map_mergeSort]
  simp

namespace Entry

theorem walks_eq_map (children : List (String × Entry)) :
    walks children = children.map fun c => (c.1, c.2.walk) := by
  induction children with
  | nil => simp [walks]
  | cons c rest ih => simp [walks, ih]

@[simp] theorem filesBelow_file (content : List UInt8) : (file content).filesBelow = [[]] := by
  simp [filesBelow, walk, isFile]

@[simp] theorem filesBelow_link (target : String) : (link target).filesBelow = [] := by
  simp [filesBelow, walk, isFile]

/-- The files below a folder are those of its entries, by name. -/
theorem filesBelow_folder (children : List (String × Entry)) : (folder children).filesBelow =
    (sortByName children).flatMap fun c => c.2.filesBelow.map (c.1 :: ·) := by
  simp [filesBelow, walk, isFile, walks_eq_map, sortByName_map, List.flatMap_map,
    List.filter_flatMap, List.map_flatMap, List.filter_map, Function.comp_def]

end Entry

theorem lookup_mem {α : Type} {name : String} {children : List (String × α)} {a : α}
    (h : children.lookup name = some a) : (name, a) ∈ children := by
  induction children with
  | nil => simp at h
  | cons c rest ih =>
    obtain ⟨n, b⟩ := c
    rw [List.lookup_cons] at h
    split at h
    · simp_all
    · exact List.mem_cons_of_mem _ (ih h)

/-- The listing of a tree misses no file. -/
theorem mem_filesBelow_of_at? {names : List String} {e : Entry} {content : List UInt8}
    (h : Entry.at? names e = some (.file content)) : names ∈ e.filesBelow := by
  induction names generalizing e with
  | nil => simp [Entry.at?] at h; simp [h]
  | cons name rest ih =>
    cases e with
    | file content => simp [Entry.at?, Entry.child?] at h
    | link target => simp [Entry.at?, Entry.child?] at h
    | folder children =>
      simp only [Entry.at?, Entry.child?, Option.bind_eq_some_iff] at h
      obtain ⟨child, hc, h⟩ := h
      simp only [Entry.filesBelow_folder, List.mem_flatMap, mem_sortByName]
      exact ⟨(name, child), lookup_mem hc, List.mem_map.2 ⟨rest, ih h, rfl⟩⟩

namespace FileSystem

variable {fs : FileSystem} {l : Location} {text : String}

theorem mem_files_of_bytesAt (h : (fs.bytesAt l).isOk = true) : l ∈ fs.files := by
  unfold bytesAt at h
  split at h
  · rename_i content hentry
    exact List.mem_map.2 ⟨l.names, mem_filesBelow_of_at? hentry, rfl⟩
  · simp [Except.isOk, Except.toBool] at h
  · simp [Except.isOk, Except.toBool] at h

theorem bytesAt_isOk_of_textAt (h : fs.textAt l = .ok text) : (fs.bytesAt l).isOk = true := by
  unfold textAt at h
  split at h
  · simp at h
  · rename_i content hbytes
    rw [hbytes]
    rfl

/-- A location with readable text is one of the files. -/
theorem mem_files_of_textAt (h : fs.textAt l = .ok text) : l ∈ fs.files :=
  mem_files_of_bytesAt (bytesAt_isOk_of_textAt h)

end FileSystem

end EngineTrials
