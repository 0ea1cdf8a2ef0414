import GraphMarkup.Decimal.Rounding

/-!
# Shortest decimals

The decimal text of a binary number carries as few significant digits as
read back to the same number. Among the decimals of that length the nearest
is taken, and the larger of two equally near ones. All comparisons are made
between natural numbers, on a scale on which the number, the borders of its
rounding interval and the decimal grid are whole.
-/

namespace GraphMarkup.Decimal

/-- A decimal number: `digits` times ten to the power `exponent`. -/
structure Numeral where
  digits : Nat
  exponent : Int
deriving DecidableEq, Repr

/-- A positive number and the reals that round to it, in units of
`1 / denominator`. -/
structure Interval where
  low : Nat
  value : Nat
  high : Nat
  denominator : Nat
  /-- Whether the two borders round to the number. -/
  closed : Bool
deriving Repr

namespace Interval

/-- Whether the grid point `point * 10 ^ exponent` rounds to the number. -/
def contains (interval : Interval) (point : Nat) (exponent : Int) : Bool :=
  let (numerator, scale) := powerFraction point 10 exponent
  let position := numerator * interval.denominator
  if interval.closed then
    interval.low * scale ≤ position && position ≤ interval.high * scale
  else
    interval.low * scale < position && position < interval.high * scale

/-- The grid point below or at the number. -/
def floor (interval : Interval) (exponent : Int) : Nat :=
  let (numerator, denominator) := powerFraction interval.value 10 (-exponent)
  numerator / (denominator * interval.denominator)

/-- Whether the number lies nearer to `point` than to the next grid point. -/
def nearerBelow (interval : Interval) (point : Nat) (exponent : Int) : Bool :=
  let (numerator, scale) := powerFraction (2 * point + 1) 10 exponent
  2 * interval.value * scale < numerator * interval.denominator

/-- The neighbour of the number on the grid of `10 ^ exponent` that rounds to
it, the nearer one if both do. -/
def gridPoint? (interval : Interval) (exponent : Int) : Option Nat :=
  let below := interval.floor exponent
  match interval.contains below exponent, interval.contains (below + 1) exponent with
  | true, false => some below
  | false, true => some (below + 1)
  | true, true => some (if interval.nearerBelow below exponent then below else below + 1)
  | false, false => none

/-- Try finer and finer grids, at most `attempts` before the last. -/
def refine (interval : Interval) (exponent : Int) : Nat → Numeral
  | 0 => ⟨interval.floor exponent, exponent⟩
  | attempts + 1 =>
      match interval.gridPoint? exponent with
      | some point => ⟨point, exponent⟩
      | none => interval.refine (exponent - 1) attempts

/-- The exponent of ten of the leading decimal digit. -/
def leadingExponent (interval : Interval) : Int :=
  let shift := Nat.log2 interval.denominator
  let scaled := interval.value * Nat.pow 10 shift / interval.denominator
  ((Nat.toDigits 10 scaled).length : Int) - 1 - shift

end Interval

namespace Format

/-- The rounding interval of a positive finite code. Its lower half is narrower
where the code below belongs to a smaller exponent. -/
def interval (format : Format) (code : Nat) : Interval :=
  let significand := format.significand code
  let narrow := significand = format.binade ∧ 0 < format.scale code
  let (unit, denominator) := powerFraction 1 2 (format.unitExponent code)
  { low := (4 * significand - if narrow then 1 else 2) * unit
    value := 4 * significand * unit
    high := (4 * significand + 2) * unit
    denominator := 4 * denominator
    closed := significand % 2 == 0 }

/-- The shortest decimal that reads back to a positive finite code. -/
def shortest (format : Format) (code : Nat) : Numeral :=
  let interval := format.interval code
  interval.refine interval.leadingExponent (format.fractionBits + 2)

end Format

end GraphMarkup.Decimal
