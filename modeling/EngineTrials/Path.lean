import EngineTrials.Text.Search

/-! Paths as they are written: their components, the name at the end and its extension, the folder
above, and joining. A path is never tidied up: the text shown is the text given. -/

namespace EngineTrials

open Text (pieces)

/-- A path, kept as it was written. -/
structure Path where
  text : String
  deriving DecidableEq, Repr, Inhabited

namespace Path

/-- A component of a path. Empty pieces and inner dots are no components; a dot that starts a
relative path is one. -/
inductive Component
  | root
  | here
  | up
  | name (text : String)
  deriving DecidableEq, Repr

def isAbsolute (p : Path) : Bool := ['/'].isPrefixOf p.text.toList

/-- The component that a piece between slashes stands for, at any place but the first. -/
def innerComponent? (piece : List Char) : Option Component :=
  if piece = [] ∨ piece = ['.'] then none
  else if piece = ['.', '.'] then some .up
  else some (.name (String.ofList piece))

def components (p : Path) : List Component :=
  match p.text.toList with
  | '/' :: rest => .root :: (pieces '/' rest).filterMap innerComponent?
  | text =>
    match pieces '/' text with
    | ['.'] :: rest => .here :: rest.filterMap innerComponent?
    | all => all.filterMap innerComponent?

def same (p q : Path) : Bool := p.components == q.components

/-- The last component, if it is a name. -/
def fileName? (p : Path) : Option String :=
  match p.components.getLast? with
  | some (.name text) => some text
  | _ => none

/-- A file name cut at its last dot: what comes before, and what comes after if there is such a
dot past the first character. -/
def splitName (name : String) : String × Option String :=
  match pieces '.' name.toList.reverse with
  | after :: before :: more =>
    let stem := (List.intercalate ['.'] (before :: more)).reverse
    if stem = [] then (name, none) else (String.ofList stem, some (String.ofList after.reverse))
  | _ => (name, none)

def fileStem? (p : Path) : Option String := p.fileName?.map fun name => (splitName name).1

def extension? (p : Path) : Option String := p.fileName?.bind fun name => (splitName name).2

/-- The pieces of a path in reverse, without those at the end that are no components. -/
def dropInert (absolute : Bool) : List (List Char) → List (List Char)
  | [] => []
  | piece :: rest =>
    if piece = [] ∨ (piece = ['.'] ∧ (absolute ∨ rest ≠ [])) then dropInert absolute rest
    else piece :: rest

/-- The path without its last component, if that is not the root. -/
def parent? (p : Path) : Option Path :=
  let absolute := p.isAbsolute
  let body := if absolute then p.text.toList.drop 1 else p.text.toList
  match dropInert absolute (pieces '/' body).reverse with
  | [] => none
  | _ :: rest =>
    let kept := List.intercalate ['/'] (dropInert absolute rest).reverse
    some ⟨String.ofList (if absolute then '/' :: kept else kept)⟩

/-- The path `q` taken from the folder `p`. -/
def join (p q : Path) : Path :=
  if q.isAbsolute then q
  else
    match p.text.toList.getLast? with
    | none | some '/' => ⟨p.text ++ q.text⟩
    | some _ => ⟨p.text ++ "/" ++ q.text⟩

end Path

end EngineTrials
