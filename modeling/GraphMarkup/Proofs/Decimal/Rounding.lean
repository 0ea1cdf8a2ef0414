import GraphMarkup.Decimal.Rounding
import Mathlib.Algebra.Order.Field.Rat
import Mathlib.Algebra.Order.Field.Power
import Mathlib.Tactic.FieldSimp
import Mathlib.Tactic.Linarith
import Mathlib.Tactic.Positivity
import Mathlib.Tactic.Ring

/-!
# Rounding intervals

Every code has an interval of numbers that are rounded to it: those at most half
a unit away, or a quarter below a code where the unit changes. The ends belong to
the interval if the significand is even. Rounding gives the code of the interval
that a number lies in.
-/

namespace GraphMarkup.Decimal

section

variable {α : Type} [LE α] [LT α]

/-- A number lies below another one, or at it if the border is closed. -/
def Precedes (closed : Bool) (low high : α) : Prop :=
  if closed then low ≤ high else low < high

theorem precedes_closed {low high : α} : Precedes true low high ↔ low ≤ high :=
  Iff.rfl

theorem precedes_open {low high : α} : Precedes false low high ↔ low < high := by
  rw [Precedes, if_neg Bool.false_ne_true]

end

theorem Precedes.le {α : Type} [Preorder α] {closed : Bool} {low high : α}
    (precedes : Precedes closed low high) : low ≤ high := by
  cases closed with
  | false => exact le_of_lt (precedes_open.mp precedes)
  | true => exact precedes

theorem Precedes.of_lt {α : Type} [Preorder α] {closed : Bool} {low high : α}
    (less : low < high) : Precedes closed low high := by
  cases closed with
  | false => exact precedes_open.mpr less
  | true => exact le_of_lt less

theorem Precedes.lt {closed : Bool} {low high : Nat} (precedes : Precedes closed low high)
    (strict : closed = false) : low < high := by
  subst strict
  exact precedes_open.mp precedes

theorem Precedes.intro {closed : Bool} {low high : Nat} (le : low ≤ high)
    (lt : closed = false → low < high) : Precedes closed low high := by
  cases closed with
  | false => exact precedes_open.mpr (lt rfl)
  | true => exact le

theorem precedes_cast {closed : Bool} {low high : Nat} :
    Precedes closed (low : ℚ) high ↔ Precedes closed low high := by
  cases closed with
  | false => simp only [precedes_open, Nat.cast_lt]
  | true => simp only [precedes_closed, Nat.cast_le]

theorem precedes_mul {closed : Bool} (low high : ℚ) {factor : ℚ} (pos : 0 < factor) :
    Precedes closed (low * factor) (high * factor) ↔ Precedes closed low high := by
  cases closed with
  | false => simp only [precedes_open, mul_lt_mul_iff_left₀ pos]
  | true => simp only [precedes_closed, mul_le_mul_iff_left₀ pos]

theorem precedes_add {closed : Bool} {low high shift : ℚ} :
    Precedes closed (low + shift) (high + shift) ↔ Precedes closed low high := by
  cases closed with
  | false => simp only [precedes_open, add_lt_add_iff_right]
  | true => simp only [precedes_closed, add_le_add_iff_right]

/-- A fraction is rounded to the natural number that is at most a half away, to an even
one if it is just a half away. -/
theorem roundToEven_eq {numerator denominator nearest : Nat} (pos : 0 < denominator)
    (low : Precedes (nearest % 2 == 0) (2 * (nearest * denominator))
      (2 * numerator + denominator))
    (high : Precedes (nearest % 2 == 0) (2 * numerator)
      (2 * (nearest * denominator) + denominator)) :
    roundToEven numerator denominator = nearest := by
  have strictLow : nearest % 2 = 1 → 2 * (nearest * denominator) < 2 * numerator + denominator :=
    fun odd => low.lt (by rw [odd]; rfl)
  have strictHigh : nearest % 2 = 1 →
      2 * numerator < 2 * (nearest * denominator) + denominator :=
    fun odd => high.lt (by rw [odd]; rfl)
  replace low := low.le
  replace high := high.le
  have split := Nat.div_add_mod numerator denominator
  have less := Nat.mod_lt numerator pos
  rw [roundToEven]
  generalize numerator / denominator = quotient at split ⊢
  generalize numerator % denominator = remainder at split less ⊢
  rw [Nat.mul_comm] at split
  have notAbove : nearest ≤ quotient + 1 := by
    by_contra above
    have scaled : (quotient + 2) * denominator ≤ nearest * denominator :=
      Nat.mul_le_mul_right _ (by omega)
    rw [Nat.add_mul] at scaled
    omega
  have notBelow : quotient ≤ nearest := by
    by_contra below
    have scaled : (nearest + 1) * denominator ≤ quotient * denominator :=
      Nat.mul_le_mul_right _ (by omega)
    rw [Nat.add_mul] at scaled
    omega
  rcases Nat.lt_or_eq_of_le notAbove with below | rfl
  · obtain rfl : nearest = quotient := by
      omega
    split_ifs
    · rfl
    · omega
    · omega
  · rw [Nat.add_mul] at low high strictLow strictHigh
    split_ifs
    · omega
    · rfl
    · omega

/-! ## Fractions -/

/-- The binary logarithm of a number between two powers of two in a row. -/
theorem log2_eq {number power : Nat} (low : 2 ^ power ≤ number) (high : number < 2 ^ (power + 1)) :
    number.log2 = power := by
  have some : number ≠ 0 := by
    have pos := Nat.two_pow_pos power
    omega
  have above := (Nat.le_log2 some).mpr low
  have below := (Nat.log2_lt some).mpr high
  omega

theorem powerFraction_pos (factor base : Nat) (pos : 0 < base) (exponent : Int) :
    0 < (powerFraction factor base exponent).2 := by
  cases exponent with
  | ofNat power => exact Nat.one_pos
  | negSucc power => exact Nat.pow_pos pos

theorem powerFraction_eq (factor base : Nat) (pos : 0 < base) (exponent : Int) :
    ((powerFraction factor base exponent).1 : ℚ) =
      factor * (base : ℚ) ^ exponent * (powerFraction factor base exponent).2 := by
  cases exponent with
  | ofNat power => simp [powerFraction]
  | negSucc power =>
    have some : (base : ℚ) ≠ 0 := by
      exact_mod_cast pos.ne'
    rw [zpow_negSucc, powerFraction, Nat.pow_eq, Nat.cast_pow]
    field_simp

namespace Format

variable {format : Format}

theorem binade_pos (format : Format) : 0 < format.binade :=
  Nat.two_pow_pos _

/-! ## Codes and significands -/

theorem significand_lt (format : Format) (code : Nat) :
    format.significand code < 2 * format.binade := by
  rw [significand]
  split
  · omega
  · have less := Nat.mod_lt code format.binade_pos
    omega

theorem binade_le_significand {code : Nat} (scaled : 0 < format.scale code) :
    format.binade ≤ format.significand code := by
  rw [significand]
  split
  · rename_i small
    rw [scale, Nat.div_eq_of_lt small] at scaled
    omega
  · omega

/-- A code is its significand behind the binades of smaller scales. -/
theorem code_eq (format : Format) (code : Nat) :
    format.scale code * format.binade + format.significand code = code := by
  have split := Nat.div_add_mod code format.binade
  rw [significand, scale]
  split
  · rename_i small
    rw [Nat.div_eq_of_lt small]
    omega
  · rename_i large
    have some : 1 ≤ code / format.binade :=
      Nat.div_pos (Nat.not_lt.mp large) format.binade_pos
    rw [Nat.sub_mul, Nat.one_mul]
    have more : format.binade ≤ code / format.binade * format.binade :=
      Nat.le_mul_of_pos_left _ some
    rw [Nat.mul_comm] at split
    omega

theorem significand_pos {code : Nat} (pos : 0 < code) : 0 < format.significand code := by
  rw [significand]
  split
  · exact pos
  · exact Nat.lt_of_lt_of_le format.binade_pos (Nat.le_add_right _ _)

/-! ## Rounding -/

/-- The unit changes at a code, so its interval is narrower below. -/
def IsNarrow (format : Format) (code : Nat) : Prop :=
  format.significand code = format.binade ∧ 0 < format.scale code

instance (format : Format) (code : Nat) : Decidable (format.IsNarrow code) :=
  inferInstanceAs (Decidable (_ ∧ _))

/-- The quarters of a unit that the interval of a code reaches below the code. -/
def quartersBelow (format : Format) (code : Nat) : Nat :=
  if format.IsNarrow code then 1 else 2

theorem quartersBelow_pos (format : Format) (code : Nat) : 0 < format.quartersBelow code := by
  rw [quartersBelow]
  split
  · exact Nat.one_pos
  · exact Nat.two_pos

theorem quartersBelow_mul_le (format : Format) (code step : Nat) :
    format.quartersBelow code * step ≤ 2 * step := by
  apply Nat.mul_le_mul_right
  rw [quartersBelow]
  split
  · exact Nat.le_succ 1
  · exact Nat.le_refl 2

/-- A number lies in the interval of a code, both in units of the least exponent. -/
structure RoundsTo (format : Format) (code : Nat) (number : ℚ) : Prop where
  low : Precedes (format.significand code % 2 == 0)
    (4 * format.significand code * 2 ^ format.scale code : ℚ)
    (4 * number + format.quartersBelow code * 2 ^ format.scale code)
  high : Precedes (format.significand code % 2 == 0) (4 * number)
    (4 * format.significand code * 2 ^ format.scale code + 2 * 2 ^ format.scale code)

/-- A number of units is cut to a significand by the scale of its binade. -/
theorem scale_eq {units denominator scale : Nat} (pos : 0 < denominator)
    (low : scale = 0 ∨ format.binade * (2 ^ scale * denominator) ≤ units)
    (high : units < 2 * format.binade * (2 ^ scale * denominator)) :
    Nat.log2 (units / denominator) - format.fractionBits = scale := by
  have below : units / denominator < 2 ^ (format.fractionBits + scale + 1) := by
    apply (Nat.div_lt_iff_lt_mul pos).mpr
    calc
      units < 2 * format.binade * (2 ^ scale * denominator) := high
      _ = 2 ^ (format.fractionBits + scale + 1) * denominator := by
        rw [binade, Nat.pow_eq]
        ring
  rcases low with rfl | low
  · rcases Nat.eq_zero_or_pos (units / denominator) with none | some
    · rw [none]
      exact Nat.zero_sub _
    · have bound := (Nat.log2_lt (Nat.ne_of_gt some)).mpr below
      omega
  · have above : 2 ^ (format.fractionBits + scale) ≤ units / denominator := by
      apply (Nat.le_div_iff_mul_le pos).mpr
      calc
        2 ^ (format.fractionBits + scale) * denominator =
            format.binade * (2 ^ scale * denominator) := by
          rw [binade, Nat.pow_eq]
          ring
        _ ≤ units := low
    rw [log2_eq above below]
    omega

/-- The code that a number of units, given as a fraction, is rounded to. -/
def codeOfUnits (format : Format) (units denominator : Nat) : Nat :=
  let scale := Nat.log2 (units / denominator) - format.fractionBits
  scale * format.binade + roundToEven units (denominator * Nat.pow 2 scale)

theorem codeOfUnits_eq {units denominator scale : Nat} (pos : 0 < denominator)
    (low : scale = 0 ∨ format.binade * (2 ^ scale * denominator) ≤ units)
    (high : units < 2 * format.binade * (2 ^ scale * denominator)) :
    format.codeOfUnits units denominator =
      scale * format.binade + roundToEven units (2 ^ scale * denominator) := by
  rw [codeOfUnits, scale_eq pos low high, Nat.mul_comm denominator, Nat.pow_eq]

/-- A number in the upper part of a code's interval, or in an interval that is not
narrow, is rounded at the scale of the code. -/
theorem codeOfUnits_of_same {code units denominator : Nat} (pos : 0 < denominator)
    (same : format.scale code = 0 ∨
      format.binade * (2 ^ format.scale code * denominator) ≤ units)
    (low : Precedes (format.significand code % 2 == 0)
      (2 * (format.significand code * (2 ^ format.scale code * denominator)))
      (2 * units + 2 ^ format.scale code * denominator))
    (high : Precedes (format.significand code % 2 == 0) (2 * units)
      (2 * (format.significand code * (2 ^ format.scale code * denominator)) +
        2 ^ format.scale code * denominator)) :
    format.codeOfUnits units denominator = code := by
  have step : 0 < 2 ^ format.scale code * denominator :=
    Nat.mul_pos (Nat.two_pow_pos _) pos
  have less : (format.significand code + 1) * (2 ^ format.scale code * denominator) ≤
      2 * format.binade * (2 ^ format.scale code * denominator) :=
    Nat.mul_le_mul_right _ (format.significand_lt code)
  have bound := high.le
  rw [Nat.add_mul] at less
  rw [codeOfUnits_eq pos same (by omega), roundToEven_eq step low high]
  exact format.code_eq code

/-- A number below a code with a narrow interval is rounded at the scale below. -/
theorem codeOfUnits_of_below {code units denominator : Nat} (pos : 0 < denominator)
    (narrow : format.IsNarrow code)
    (low : 4 * (format.binade * (2 ^ format.scale code * denominator)) ≤
      4 * units + 2 ^ format.scale code * denominator)
    (below : units < format.binade * (2 ^ format.scale code * denominator)) :
    format.codeOfUnits units denominator = code := by
  obtain ⟨scale, next⟩ := Nat.exists_eq_add_of_lt narrow.2
  rw [Nat.zero_add] at next
  have double : 2 ^ format.scale code * denominator = 2 * (2 ^ scale * denominator) := by
    rw [next]
    ring
  rw [double] at low below
  have step : 0 < 2 ^ scale * denominator :=
    Nat.mul_pos (Nat.two_pow_pos _) pos
  have wide : 1 * (2 ^ scale * denominator) ≤ format.binade * (2 ^ scale * denominator) :=
    Nat.mul_le_mul_right _ format.binade_pos
  rw [Nat.mul_left_comm _ 2] at low below
  have rounded : roundToEven units (2 ^ scale * denominator) = 2 * format.binade := by
    have even : (2 * format.binade % 2 == 0) = true := by
      rw [Nat.mul_mod_right]
      rfl
    apply roundToEven_eq step
    · rw [even, precedes_closed]
      rw [Nat.mul_assoc 2]
      omega
    · rw [even, precedes_closed]
      rw [Nat.mul_assoc 2]
      omega
  have chosen : format.codeOfUnits units denominator =
      scale * format.binade + roundToEven units (2 ^ scale * denominator) := by
    apply codeOfUnits_eq pos
    · apply Or.inr
      omega
    · rw [Nat.mul_assoc 2]
      exact below
  rw [chosen, rounded]
  have whole := format.code_eq code
  rw [narrow.1, next, Nat.add_mul] at whole
  omega

/-! ## Intervals -/

/-- The lower end of an interval bounds the units that a number has. -/
theorem RoundsTo.low_units {code units denominator : Nat} {number : ℚ}
    (rounds : format.RoundsTo code number) (pos : 0 < denominator)
    (same : number * denominator = units) :
    Precedes (format.significand code % 2 == 0)
      (4 * (format.significand code * (2 ^ format.scale code * denominator)))
      (4 * units + format.quartersBelow code * (2 ^ format.scale code * denominator)) := by
  have step : (0 : ℚ) < denominator := by
    exact_mod_cast pos
  have scaled := (precedes_mul _ _ step).mpr rounds.low
  rw [add_mul, mul_assoc 4 number, same] at scaled
  apply precedes_cast.mp
  push_cast
  simpa only [mul_assoc] using scaled

/-- The upper end of an interval bounds the units that a number has. -/
theorem RoundsTo.high_units {code units denominator : Nat} {number : ℚ}
    (rounds : format.RoundsTo code number) (pos : 0 < denominator)
    (same : number * denominator = units) :
    Precedes (format.significand code % 2 == 0) (4 * units)
      (4 * (format.significand code * (2 ^ format.scale code * denominator)) +
        2 * (2 ^ format.scale code * denominator)) := by
  have step : (0 : ℚ) < denominator := by
    exact_mod_cast pos
  have scaled := (precedes_mul _ _ step).mpr rounds.high
  rw [add_mul, mul_assoc 4 number, same] at scaled
  apply precedes_cast.mp
  push_cast
  simpa only [mul_assoc] using scaled

/-- Only a narrow interval reaches below the binade of its code. -/
theorem isNarrow_of_below {code units denominator : Nat} (scaled : 0 < format.scale code)
    (low : 4 * (format.significand code * (2 ^ format.scale code * denominator)) ≤
      4 * units + format.quartersBelow code * (2 ^ format.scale code * denominator))
    (below : units < format.binade * (2 ^ format.scale code * denominator)) :
    format.IsNarrow code := by
  have few := format.quartersBelow_mul_le code (2 ^ format.scale code * denominator)
  have least := binade_le_significand scaled
  refine ⟨?_, scaled⟩
  by_contra other
  have more : (format.binade + 1) * (2 ^ format.scale code * denominator) ≤
      format.significand code * (2 ^ format.scale code * denominator) :=
    Nat.mul_le_mul_right _ (by omega)
  rw [Nat.add_mul] at more
  omega

/-- Rounding gives the code in whose interval a number lies. -/
theorem codeOfUnits_of_roundsTo {code units denominator : Nat} {number : ℚ}
    (pos : 0 < denominator) (same : number * denominator = units)
    (rounds : format.RoundsTo code number) : format.codeOfUnits units denominator = code := by
  have low := rounds.low_units pos same
  have high := rounds.high_units pos same
  have few := format.quartersBelow_mul_le code (2 ^ format.scale code * denominator)
  by_cases upper : format.scale code = 0 ∨
      format.binade * (2 ^ format.scale code * denominator) ≤ units
  · apply codeOfUnits_of_same pos upper
    · apply Precedes.intro
      · have le := low.le
        omega
      · intro strict
        have lt := low.lt strict
        omega
    · apply Precedes.intro
      · have le := high.le
        omega
      · intro strict
        have lt := high.lt strict
        omega
  · rw [not_or, Nat.not_le] at upper
    have bound := low.le
    have narrow := isNarrow_of_below (Nat.pos_of_ne_zero upper.1) bound upper.2
    rw [quartersBelow, if_pos narrow, narrow.1, Nat.one_mul] at bound
    exact codeOfUnits_of_below pos narrow bound upper.2

end Format

end GraphMarkup.Decimal
