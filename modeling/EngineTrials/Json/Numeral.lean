import EngineTrials.Json.Basic
import EngineTrials.Decimal.Shortest

/-! The values of JSON numbers: counts of at most 64 bits, and doubles. A double is computed from
the digits that fit in 64 bits, scaled by a power of ten in double arithmetic. -/

namespace EngineTrials.Json

def maxCount : Nat := 0xFFFFFFFFFFFFFFFF

def valueOfDigits (digits : List Char) : Nat := Nat.ofDigitChars 10 digits 0

/-- The count that a numeral spells: digits only, no more than `maxCount`. -/
def countOfNumeral? (numeral : String) : Option Nat :=
  let digits := numeral.toList
  if digits ≠ [] ∧ digits.all Char.isDigit ∧ valueOfDigits digits ≤ maxCount then
    some (valueOfDigits digits)
  else none

/-- Digits gathered into a number as long as it fits in 64 bits: the number and the digits left
over. -/
def gather : Nat → List Char → Nat × List Char
  | total, [] => (total, [])
  | total, d :: rest =>
    let next := 10 * total + (d.toNat - '0'.toNat)
    if maxCount < next then (total, d :: rest) else gather next rest

/-- The exponent that a numeral writes after its fraction. -/
def writtenExponent : List Char → Int
  | _ :: '-' :: digits => -(valueOfDigits digits : Int)
  | _ :: '+' :: digits => valueOfDigits digits
  | _ :: digits => valueOfDigits digits
  | [] => 0

def powerOfTen (n : Nat) : Float := Float.ofScientific 1 false n

/-- `x` scaled by a power of ten in double arithmetic, in steps of at most `10 ^ 308`. Two of these
steps take any number of 64 bits to zero; a number too large for a double has no value. -/
def scale? : Nat → Float → Int → Option Float
  | 0, _, _ => some 0.0
  | steps + 1, x, exponent =>
    if exponent.natAbs ≤ 308 then
      if 0 ≤ exponent then
        let scaled := x * powerOfTen exponent.toNat
        if scaled.isInf then none else some scaled
      else some (x / powerOfTen exponent.natAbs)
    else if x == 0.0 then some x
    else if 0 ≤ exponent then none
    else scale? steps (x / powerOfTen 308) (exponent + 308)

/-- The double that a numeral spells, if it is not too large. -/
def floatOfNumeral? (numeral : String) : Option Float :=
  let text := numeral.toList
  let negative := text.head? = some '-'
  let text := if negative then text.drop 1 else text
  let (total, left) := gather 0 (text.takeWhile Char.isDigit)
  let rest := text.dropWhile Char.isDigit
  let fraction := match rest with
    | '.' :: digits => digits.takeWhile Char.isDigit
    | _ => []
  let (total, dropped) := gather total fraction
  let exponent := (left.length : Int) - ((fraction.length : Int) - dropped.length) +
    writtenExponent (rest.drop (if fraction = [] then 0 else fraction.length + 1))
  (scale? 3 (Float.ofNat total) exponent).map fun x => if negative then -x else x

/-- A double as a JSON value; null if it is not finite. -/
def ofFloat (x : Float) : Json :=
  match Decimal.Binary64.ofFloat x with
  | .finite negative significand exponent =>
    .number (String.ofList (Decimal.shortestText negative significand exponent))
  | _ => .null

def ofFloat? (x : Option Float) : Json := (x.map ofFloat).getD .null

end EngineTrials.Json
