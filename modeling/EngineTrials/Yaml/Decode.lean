import EngineTrials.Json.Numeral
import EngineTrials.Yaml.Node

/-! Reading typed values from a YAML document. The type wanted decides how a scalar is read: as text
any scalar will do, whole numbers and truth values have to be written plainly. A value left empty is
an empty list or record. -/

namespace EngineTrials.Yaml

/-- The value of one digit in a base of at most sixteen. -/
def digitValue? (base : Nat) (c : Char) : Option Nat :=
  (Json.hexValue? c).filter (· < base)

/-- The number that digits in a base spell, if it is one of at most 64 bits. -/
def digitsValue? (base : Nat) (digits : List Char) : Option Nat := do
  if digits = [] then none
  let n ← digits.foldlM (fun n d => (digitValue? base d).map (n * base + ·)) 0
  if n ≤ Json.maxCount then some n else none

/-- What follows a plus sign, if there is one. -/
def dropPlus : List Char → List Char
  | '+' :: rest => rest
  | text => text

/-- The base that a number names before its digits, and the digits. -/
def basedDigits? : List Char → Option (Nat × List Char)
  | '0' :: 'x' :: digits => some (16, digits)
  | '0' :: 'o' :: digits => some (8, digits)
  | '0' :: 'b' :: digits => some (2, digits)
  | _ => none

/-- The count of at most 64 bits that a scalar's text spells; decimal digits do not start with a
zero. -/
def countOfText? (text : List Char) : Option Nat :=
  let digits := dropPlus text
  match basedDigits? digits with
  | some (base, digits) => digitsValue? base digits
  | none =>
    if digits.head? = some '0' ∧ digits ≠ ['0'] then none else digitsValue? 10 digits

/-- The truth value that a scalar's text spells. -/
def boolOfText? (text : List Char) : Option Bool :=
  if ["true", "True", "TRUE"].contains (String.ofList text) then some true
  else if ["false", "False", "FALSE"].contains (String.ofList text) then some false
  else none

/-- Whether a scalar's text is a spelling of null. -/
def isNullText (text : List Char) : Bool :=
  ["~", "null", "Null", "NULL"].contains (String.ofList text)

def coreTag (kind : String) : List Char := "tag:yaml.org,2002:".toList ++ kind.toList

namespace Document

def text? (d : Document) (n : Node) : Option String :=
  match d.follow n with
  | .scalar _ _ text => some (String.ofList text)
  | _ => none

/-- The text of a scalar that is written plainly, or as a block with the tag of its kind. -/
def plainText? (d : Document) (kind : String) (n : Node) : Option (List Char) :=
  match d.follow n with
  | .scalar _ .plain text => some text
  | .scalar tag .literal text => if tag = some (coreTag kind) then some text else none
  | _ => none

def count? (d : Document) (n : Node) : Option Nat := (d.plainText? "int" n).bind countOfText?

def bool? (d : Document) (n : Node) : Option Bool := (d.plainText? "bool" n).bind boolOfText?

/-- Whether a node stands for no value. A scalar with the tag of null has to be a spelling of
null. -/
def isNull? (d : Document) (n : Node) : Option Bool :=
  match d.follow n with
  | .scalar none .plain text => some (text = [] || isNullText text)
  | .scalar (some tag) .plain text =>
    if tag = coreTag "null" then if isNullText text then some true else none else some false
  | _ => some false

def nullable {α : Type} (d : Document) (read? : Node → Option α) (n : Node) :
    Option (Option α) := do
  if ← d.isNull? n then return none else return some (← read? n)

/-- The items of a sequence, each read by `item?`; a value left empty has none. -/
def list? {α : Type} (d : Document) (item? : Node → Option α) (n : Node) : Option (List α) :=
  match d.follow n with
  | .sequence items => items.mapM item?
  | .scalar _ .plain [] => some []
  | _ => none

/-- The pairs of a mapping; a value left empty has none. -/
def pairs? (d : Document) (n : Node) : Option (List (Node × Node)) :=
  match d.follow n with
  | .mapping pairs => some pairs
  | .scalar _ .plain [] => some []
  | _ => none

/-- The pairs of a mapping whose keys are scalars, with the texts of the keys. -/
def members? (d : Document) (n : Node) : Option (List (String × Node)) := do
  (← d.pairs? n).mapM fun pair => (d.text? pair.1).map (·, pair.2)

/-- The fields of a record with the given names, none of them twice. Other keys are passed over. -/
def fields? (d : Document) (names : List String) (n : Node) : Option (List (String × Node)) := do
  let members ← d.members? n
  if names.all fun name => (members.countP fun m => m.1 == name) ≤ 1 then some members else none

def texts? (d : Document) (n : Node) : Option (List (String × String)) := do
  (← d.members? n).mapM fun m => (d.text? m.2).map (m.1, ·)

end Document

def required {α : Type} (fields : List (String × Node)) (name : String) (read? : Node → Option α) :
    Option α :=
  (fields.lookup name).bind read?

/-- A field that may be missing and is `default` then. -/
def defaulted {α : Type} (fields : List (String × Node)) (name : String) (default : α)
    (read? : Node → Option α) : Option α :=
  match fields.lookup name with
  | some n => read? n
  | none => some default

end EngineTrials.Yaml
