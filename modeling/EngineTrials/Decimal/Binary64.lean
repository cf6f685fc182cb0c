/-! A double as an exact number: its sign, and a whole number times a power of two. -/

namespace EngineTrials.Decimal

/-- What the bits of a double stand for. A finite one is `significand * 2 ^ exponent`. -/
inductive Binary64
  | finite (negative : Bool) (significand : Nat) (exponent : Int)
  | infinite (negative : Bool)
  | notANumber
  deriving DecidableEq, Repr

def twoTo (n : Nat) : Nat := Nat.pow 2 n

def tenTo (n : Nat) : Nat := Nat.pow 10 n

/-- The number that 64 bits stand for: a sign bit, eleven bits of exponent, 52 of fraction. -/
def Binary64.ofBits (bits : UInt64) : Binary64 :=
  let n := bits.toNat
  let negative : Bool := n / twoTo 63 == 1
  let exponent : Nat := n / twoTo 52 % 2048
  let fraction : Nat := n % twoTo 52
  if exponent = 2047 then if fraction = 0 then .infinite negative else .notANumber
  else if exponent = 0 then .finite negative fraction (-1074)
  else .finite negative (twoTo 52 + fraction) ((exponent : Int) - 1075)

/-- The exact number that a double stands for. -/
def Binary64.ofFloat (x : Float) : Binary64 := .ofBits x.toBits

/-- The number of decimal digits of a whole number. -/
def digitCount (n : Nat) : Nat := (Nat.toDigits 10 n).length

end EngineTrials.Decimal
