import GraphMarkup.Decimal.Binary

/-!
# Rounding to the nearest binary number

A non-negative fraction is rounded to the code of the nearest number of a
format, ties going to the even code. The arithmetic is exact: the fraction is
scaled to units of the least exponent, cut to the width of a significand and
rounded once.
-/

namespace GraphMarkup.Decimal

/-- The natural number nearest to a fraction, ties going to the even one. -/
def roundToEven (numerator denominator : Nat) : Nat :=
  let quotient := numerator / denominator
  let remainder := numerator % denominator
  if 2 * remainder < denominator then quotient
  else if denominator < 2 * remainder then quotient + 1
  else quotient + quotient % 2

/-- `factor * base ^ exponent` as a fraction of natural numbers. -/
def powerFraction (factor base : Nat) (exponent : Int) : Nat × Nat :=
  match exponent with
  | .ofNat power => (factor * Nat.pow base power, 1)
  | .negSucc power => (factor, Nat.pow base (power + 1))

/-- The code nearest to a fraction. It is the infinity code or above it when
the fraction is beyond the finite numbers. -/
def Format.nearestCode (format : Format) (numerator denominator : Nat) : Nat :=
  let (units, unitsDenominator) := powerFraction numerator 2 (-format.leastExponent)
  let denominator := denominator * unitsDenominator
  let whole := units / denominator
  let scale := Nat.log2 whole - format.fractionBits
  scale * format.binade + roundToEven units (denominator * Nat.pow 2 scale)

/-- The code nearest to the number with the given decimal digits, times ten to
the power `exponent`. Numbers whose leading digit lies far outside the range of
the format are settled without computing the power. -/
def Format.nearestCodeOfDecimal (format : Format) (digits : Nat) (exponent : Int) : Nat :=
  let leading := exponent + (Nat.toDigits 10 digits).length
  if digits = 0 ∨ leading < format.leastExponent then 0
  else if format.exponentLimit < leading then format.infinityCode
  else
    let (numerator, denominator) := powerFraction digits 10 exponent
    format.nearestCode numerator denominator

end GraphMarkup.Decimal
