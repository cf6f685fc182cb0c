import EngineTrials.Decimal.Binary64

/-! Doubles with a fixed number of decimal places, rounded from the exact value; a half goes to the
even neighbour. -/

namespace EngineTrials.Decimal

/-- The whole number nearest to a quotient; a half goes to the even neighbour. -/
def roundQuotient (numerator denominator : Nat) : Nat :=
  let quotient := numerator / denominator
  let twice := 2 * (numerator % denominator)
  if twice < denominator then quotient
  else if denominator < twice then quotient + 1
  else if quotient % 2 = 0 then quotient
  else quotient + 1

/-- The whole number of units of `10 ^ -places` nearest to `significand * 2 ^ exponent`. -/
def scaledUnits (significand : Nat) (exponent : Int) (places : Nat) : Nat :=
  roundQuotient (significand * twoTo exponent.toNat * tenTo places) (twoTo (-exponent).toNat)

/-- A whole number of units written with the point before its last `places` digits. -/
def placePoint (units places : Nat) : List Char :=
  let digits := Nat.toDigits 10 units
  let padded := List.replicate (places + 1 - digits.length) '0' ++ digits
  let whole := padded.take (padded.length - places)
  if places = 0 then whole else whole ++ '.' :: padded.drop (padded.length - places)

/-- A double with `places` decimal places. The sign of a negative zero is written. -/
def fixed (x : Float) (places : Nat) : String :=
  match Binary64.ofFloat x with
  | .finite negative significand exponent =>
    let text := placePoint (scaledUnits significand exponent places) places
    String.ofList (if negative then '-' :: text else text)
  | .infinite negative => if negative then "-inf" else "inf"
  | .notANumber => "NaN"

theorem roundQuotient_error {n d : Nat} (hd : 0 < d) :
    2 * (roundQuotient n d * d) ≤ 2 * n + d ∧ 2 * n ≤ 2 * (roundQuotient n d * d) + d := by
  have hdiv := Nat.div_add_mod n d
  have hmod := Nat.mod_lt n hd
  have hnext := Nat.add_one_mul (n / d) d
  rw [Nat.mul_comm] at hdiv
  simp only [roundQuotient]
  split
  · omega
  · split
    · omega
    · split
      · omega
      · omega

end EngineTrials.Decimal
