import EngineTrials.Decimal.Binary64

/-! The shortest decimal that reads back as a double: of all decimals that round to the double, one
with the fewest digits, and of those the nearest to it. -/

namespace EngineTrials.Decimal

/-- A whole number of digits times a power of ten. -/
structure Scaled where
  digits : Nat
  exponent : Int
  deriving DecidableEq, Repr

/-- The numbers that round to a double, as fractions over one denominator: the value, and the ends
of the interval, which belong to it if `closed`. -/
structure RoundingInterval where
  value : Nat
  low : Nat
  high : Nat
  denominator : Nat
  closed : Bool

/-- The interval around `significand * 2 ^ exponent`. Below a power of two the neighbour is half as
far away. -/
def RoundingInterval.around (significand : Nat) (exponent : Int) : RoundingInterval :=
  let scale := twoTo (exponent - 2).toNat
  let gapBelow := if significand = twoTo 52 ∧ exponent ≠ -1074 then 1 else 2
  { value := 4 * significand * scale
    low := (4 * significand - gapBelow) * scale
    high := (4 * significand + 2) * scale
    denominator := twoTo (2 - exponent).toNat
    closed := significand % 2 = 0 }

/-- Whether `count * 10 ^ exponent` lies in the interval. -/
def RoundingInterval.holds (i : RoundingInterval) (count : Nat) (exponent : Int) : Bool :=
  let up := tenTo (-exponent).toNat
  let point := count * i.denominator * tenTo exponent.toNat
  if i.closed then i.low * up ≤ point && point ≤ i.high * up
  else i.low * up < point && point < i.high * up

/-- The point of the grid of multiples of `10 ^ exponent` that is in the interval and nearest to its
value, if there is one; of two as near, the even one. -/
def RoundingInterval.onGrid? (i : RoundingInterval) (exponent : Int) : Option Nat :=
  let numerator := i.value * tenTo (-exponent).toNat
  let denominator := i.denominator * tenTo exponent.toNat
  let below := numerator / denominator
  let twice := 2 * (numerator % denominator)
  let nearer := if twice < denominator ∨ (twice = denominator ∧ below % 2 = 0) then below
    else below + 1
  let farther := if nearer = below then below + 1 else below
  if i.holds nearer exponent then some nearer
  else if i.holds farther exponent then some farther
  else none

/-- The place of the first digit of a positive quotient, counted from the digit before the
point. -/
def leadingPlace (numerator denominator : Nat) : Int :=
  (digitCount (numerator * tenTo 400 / denominator) : Int) - 401

/-- A decimal without zeros at the end of its digits. At most `fuel` of them are dropped. -/
def dropZeros : Nat → Nat → Int → Scaled
  | 0, digits, exponent => ⟨digits, exponent⟩
  | fuel + 1, digits, exponent =>
    if digits ≠ 0 ∧ digits % 10 = 0 then dropZeros fuel (digits / 10) (exponent + 1)
    else ⟨digits, exponent⟩

/-- The shortest decimal for a positive `significand * 2 ^ exponent`: seventeen digits are always
enough. -/
def shortest (significand : Nat) (exponent : Int) : Scaled :=
  let interval := RoundingInterval.around significand exponent
  let place := leadingPlace interval.value interval.denominator
  let found := (List.range 17).findSome? fun (n : Nat) =>
    let grid := place - n
    (interval.onGrid? grid).map fun count => dropZeros (digitCount count) count grid
  found.getD ⟨0, 0⟩

/-- A decimal written with a point: at least one digit on each side of it. -/
def Scaled.positional (d : Scaled) : List Char :=
  let digits := Nat.toDigits 10 d.digits
  if 0 ≤ d.exponent then digits ++ List.replicate d.exponent.toNat '0' ++ ['.', '0']
  else
    let places := (-d.exponent).toNat
    let padded := List.replicate (places + 1 - digits.length) '0' ++ digits
    padded.take (padded.length - places) ++ '.' :: padded.drop (padded.length - places)

/-- A decimal written with one digit before the point and a signed exponent. -/
def Scaled.scientific (d : Scaled) : List Char :=
  let digits := Nat.toDigits 10 d.digits
  let exponent := d.exponent + (digits.length - 1 : Nat)
  let mantissa := match digits with
    | first :: second :: more => first :: '.' :: second :: more
    | all => all
  mantissa ++ 'e' :: (if exponent < 0 then '-' else '+') :: Nat.toDigits 10 exponent.natAbs

/-- The shortest text of a finite double: positional from `10 ^ -5` up to `10 ^ 16`, with an
exponent beyond. -/
def shortestText (negative : Bool) (significand : Nat) (exponent : Int) : List Char :=
  let text :=
    if significand = 0 then ['0', '.', '0']
    else
      let d := shortest significand exponent
      let place := d.exponent + (digitCount d.digits : Int) - 1
      if -5 ≤ place ∧ place < 16 then d.positional else d.scientific
  if negative then '-' :: text else text

end EngineTrials.Decimal
