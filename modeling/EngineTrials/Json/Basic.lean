/-! JSON values and their text. A string literal may hold an unpaired surrogate escape, which stands
for no text; such a literal is kept as `none`, and a number is kept as it is written. -/

namespace EngineTrials

/-- A JSON value. -/
inductive Json
  | null
  | bool (b : Bool)
  | number (numeral : String)
  | string (text : Option String)
  | array (items : List Json)
  | object (members : List (Option String × Json))

namespace Json

def ofString (s : String) : Json := .string (some s)

def ofOption (s : Option String) : Json := (s.map ofString).getD .null

def ofNat (n : Nat) : Json := .number (String.ofList (Nat.toDigits 10 n))

def ofStrings (texts : List String) : Json := .array (texts.map ofString)

def ofMembers (members : List (String × Json)) : Json :=
  .object (members.map fun m => (some m.1, m.2))

/-- The white space between the parts of a document. -/
structure Layout where
  /-- What stands before an item, a member or a closing bracket at a depth. -/
  lineAt : Nat → List Char
  /-- What stands between the colon and the value of a member. -/
  afterColon : List Char

def Layout.compact : Layout := ⟨fun _ => [], []⟩

/-- A line for each item and member, indented by two spaces for each bracket around it. -/
def Layout.pretty : Layout := ⟨fun depth => '\n' :: List.replicate (2 * depth) ' ', [' ']⟩

def hexDigit (n : Nat) : Char := Nat.digitChar n

def escaped (c : Char) : List Char :=
  if c = '"' then ['\\', '"']
  else if c = '\\' then ['\\', '\\']
  else if c = '\n' then ['\\', 'n']
  else if c = '\r' then ['\\', 'r']
  else if c = '\t' then ['\\', 't']
  else if c = '\x08' then ['\\', 'b']
  else if c = '\x0c' then ['\\', 'f']
  else if c.toNat < 0x20 then
    ['\\', 'u', '0', '0', hexDigit (c.toNat / 16), hexDigit (c.toNat % 16)]
  else [c]

def quoted : Option String → List Char
  | some s => '"' :: s.toList.flatMap escaped ++ ['"']
  | none => ['"', '\\', 'u', 'd', '8', '0', '0', '"']

mutual

/-- The text of a value that stands at a depth. -/
def render (layout : Layout) (depth : Nat) : Json → List Char
  | .null => ['n', 'u', 'l', 'l']
  | .bool true => ['t', 'r', 'u', 'e']
  | .bool false => ['f', 'a', 'l', 's', 'e']
  | .number numeral => numeral.toList
  | .string text => quoted text
  | .array [] => ['[', ']']
  | .array (item :: rest) =>
    '[' :: layout.lineAt (depth + 1) ++ render layout (depth + 1) item ++
      renderItems layout depth rest
  | .object [] => ['\x7b', '\x7d']
  | .object ((key, value) :: rest) =>
    '\x7b' :: layout.lineAt (depth + 1) ++ quoted key ++ ':' :: layout.afterColon ++
      render layout (depth + 1) value ++ renderMembers layout depth rest

/-- The text of the further items of an array that stands at a depth. -/
def renderItems (layout : Layout) (depth : Nat) : List Json → List Char
  | [] => layout.lineAt depth ++ [']']
  | item :: rest =>
    ',' :: layout.lineAt (depth + 1) ++ render layout (depth + 1) item ++
      renderItems layout depth rest

/-- The text of the further members of an object that stands at a depth. -/
def renderMembers (layout : Layout) (depth : Nat) : List (Option String × Json) → List Char
  | [] => layout.lineAt depth ++ ['\x7d']
  | (key, value) :: rest =>
    ',' :: layout.lineAt (depth + 1) ++ quoted key ++ ':' :: layout.afterColon ++
      render layout (depth + 1) value ++ renderMembers layout depth rest

end

/-- The text of a value without white space. -/
def compact (j : Json) : String := String.ofList (j.render .compact 0)

/-- The text of a value over several lines. -/
def pretty (j : Json) : String := String.ofList (j.render .pretty 0)

end Json

end EngineTrials
