import EngineTrials.Json.Numeral

/-! Reading typed values from JSON. A record is an object with its fields by name, or an array with
its fields in order; a variant is an object with a tag among its fields, or an array that starts
with the tag. Members of other names are passed over. -/

namespace EngineTrials.Json

def text? : Json → Option String
  | .string text => text
  | _ => none

/-- A count of at most 64 bits, written as a plain whole number. -/
def count? : Json → Option Nat
  | .number numeral => countOfNumeral? numeral
  | _ => none

/-- A double; a whole number is one as well. -/
def float? : Json → Option Float
  | .number numeral => floatOfNumeral? numeral
  | _ => none

/-- The items of an array, each read by `item?`. -/
def list? {α : Type} (item? : Json → Option α) : Json → Option (List α)
  | .array items => items.mapM item?
  | _ => none

/-- The most containers that may stand around one another. -/
def depthLimit : Nat := 127

/-- Whether a number can be held: a count as it is, any other number as a double in range. -/
def canHoldNumeral (numeral : String) : Bool :=
  (countOfNumeral? numeral).isSome || (floatOfNumeral? numeral).isSome

mutual

/-- Whether a value can be held whole: its strings are texts, its numbers are in the range of a
double, and at most `room` containers stand around one another in it. -/
def canHold : Nat → Json → Bool
  | _, .null => true
  | _, .bool _ => true
  | _, .number numeral => canHoldNumeral numeral
  | _, .string text => text.isSome
  | room, .array items => 0 < room && canHoldItems (room - 1) items
  | room, .object members => 0 < room && canHoldMembers (room - 1) members

def canHoldItems : Nat → List Json → Bool
  | _, [] => true
  | room, item :: rest => canHold room item && canHoldItems room rest

def canHoldMembers : Nat → List (Option String × Json) → Bool
  | _, [] => true
  | room, (key, value) :: rest => key.isSome && canHold room value && canHoldMembers room rest

end

/-- The fields of a record that are present, and whether they were found by their place. -/
structure Fields where
  present : List (String × Json)
  byPlace : Bool

/-- How often a name occurs among the members of an object. -/
def timesNamed (name : String) (members : List (Option String × Json)) : Nat :=
  members.countP fun m => m.1 == some name

/-- The fields of a record with the given names: none of them twice, all names texts, and in an
array no more items than names. -/
def fields? (names : List String) : Json → Option Fields
  | .array items =>
    if items.length ≤ names.length then some ⟨names.zip items, true⟩ else none
  | .object members =>
    if members.all (fun m => m.1.isSome) ∧ names.all (fun name => timesNamed name members ≤ 1) then
      some ⟨names.filterMap fun name => (members.lookup (some name)).map (name, ·), false⟩
    else none
  | _ => none

namespace Fields

def get? (f : Fields) (name : String) : Option Json := f.present.lookup name

def required {α : Type} (f : Fields) (name : String) (read? : Json → Option α) : Option α :=
  (f.get? name).bind read?

def nullable {α : Type} (read? : Json → Option α) : Json → Option (Option α)
  | .null => some none
  | j => (read? j).map some

/-- A field that may be null, and may be missing from an object. -/
def optional {α : Type} (f : Fields) (name : String) (read? : Json → Option α) :
    Option (Option α) :=
  match f.get? name with
  | some j => nullable read? j
  | none => if f.byPlace then none else some none

/-- A field that may be missing and is `default` then. -/
def defaulted {α : Type} (f : Fields) (name : String) (default : α) (read? : Json → Option α) :
    Option α :=
  match f.get? name with
  | some j => read? j
  | none => some default

end Fields

/-- The tag of a variant and the value without the tag. -/
def tagged? (tag : String) : Json → Option (Json × Json)
  | .array (first :: rest) => some (first, .array rest)
  | .object members =>
    if members.all (fun m => m.1.isSome) ∧ timesNamed tag members = 1 then
      (members.lookup (some tag)).map fun value =>
        (value, .object (members.filter fun m => m.1 != some tag))
    else none
  | _ => none

/-- The name of a variant. In a value that is already held, the variant's place in the list of
names stands for it as well. -/
def variant? (names : List String) (held : Bool) : Json → Option String
  | .string (some name) => if names.contains name then some name else none
  | j => if held then (count? j).bind (names[·]?) else none

end EngineTrials.Json
