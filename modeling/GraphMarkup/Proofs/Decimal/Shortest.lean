import GraphMarkup.Decimal.Shortest
import GraphMarkup.Proofs.Decimal.Nearest

/-!
# Shortest decimals are rounded back

Every grid point that the search for the shortest decimal may return lies in the
rounding interval of the number: the points of the coarse grids because they are
tested, and the one of the finest grid because that grid is finer than a quarter
of a unit.
-/

namespace GraphMarkup.Decimal

namespace Interval

variable {interval : Interval}

/-- A grid point is contained if it lies between the borders. -/
theorem contains_iff {point : Nat} {exponent : Int} :
    interval.contains point exponent ↔
      Precedes interval.closed (interval.low : ℚ)
          (point * 10 ^ exponent * interval.denominator) ∧
        Precedes interval.closed (point * 10 ^ exponent * interval.denominator : ℚ)
          interval.high := by
  have fraction := powerFraction_eq point 10 (by decide) exponent
  have pos : (0 : ℚ) < (powerFraction point 10 exponent).2 := by
    exact_mod_cast powerFraction_pos point 10 (by decide) exponent
  rw [Nat.cast_ofNat] at fraction
  have position : (point * 10 ^ exponent * interval.denominator *
      (powerFraction point 10 exponent).2 : ℚ) =
      ((powerFraction point 10 exponent).1 * interval.denominator : Nat) := by
    rw [Nat.cast_mul, fraction]
    ring
  rw [← precedes_mul interval.low _ pos, ← precedes_mul _ interval.high pos, position,
    ← Nat.cast_mul, ← Nat.cast_mul, precedes_cast, precedes_cast, contains]
  cases interval.closed with
  | false => simp [precedes_open]
  | true => simp [precedes_closed]

/-- The fraction whose whole part is the grid point below or at the number. -/
theorem floor_spec (pos : 0 < interval.denominator) (exponent : Int) :
    ∃ numerator denominator : Nat, 0 < denominator ∧
      interval.floor exponent = numerator / denominator ∧
      (numerator * (10 ^ exponent * interval.denominator) : ℚ) = interval.value * denominator := by
  have fraction := powerFraction_eq interval.value 10 (by decide) (-exponent)
  have positive := powerFraction_pos interval.value 10 (by decide) (-exponent)
  refine ⟨_, _, Nat.mul_pos positive pos, rfl, ?_⟩
  change ((powerFraction interval.value 10 (-exponent)).1 *
    (10 ^ exponent * interval.denominator) : ℚ) = _
  rw [fraction, zpow_neg]
  push_cast
  field_simp

/-- The grid point lies below or at the number. -/
theorem floor_le (pos : 0 < interval.denominator) (exponent : Int) :
    (interval.floor exponent * (10 ^ exponent * interval.denominator) : ℚ) ≤ interval.value := by
  obtain ⟨numerator, denominator, positive, floor, same⟩ := floor_spec pos exponent
  have below : ((numerator / denominator : Nat) * denominator : ℚ) ≤ numerator := by
    exact_mod_cast Nat.div_mul_le_self numerator denominator
  have step : (0 : ℚ) < 10 ^ exponent * interval.denominator := by
    positivity
  have scaled := mul_le_mul_of_nonneg_right below step.le
  have cancel : (0 : ℚ) < denominator := by
    exact_mod_cast positive
  rw [floor]
  apply le_of_mul_le_mul_right _ cancel
  rw [← same]
  linarith

/-- The next grid point lies above the number. -/
theorem lt_floor (pos : 0 < interval.denominator) (exponent : Int) :
    (interval.value : ℚ) <
      (interval.floor exponent + 1) * (10 ^ exponent * interval.denominator) := by
  obtain ⟨numerator, denominator, positive, floor, same⟩ := floor_spec pos exponent
  have above : (numerator : ℚ) < ((numerator / denominator : Nat) + 1) * denominator := by
    rw [mul_comm]
    exact_mod_cast Nat.lt_mul_div_succ numerator positive
  have step : (0 : ℚ) < 10 ^ exponent * interval.denominator := by
    positivity
  have scaled := mul_lt_mul_of_pos_right above step
  have cancel : (0 : ℚ) < denominator := by
    exact_mod_cast positive
  rw [floor]
  apply lt_of_mul_lt_mul_right _ cancel.le
  rw [← same]
  linarith

theorem contains_of_gridPoint? {exponent : Int} {point : Nat}
    (found : interval.gridPoint? exponent = some point) : interval.contains point exponent := by
  rw [gridPoint?] at found
  split at found
  · cases found
    assumption
  · cases found
    assumption
  · split at found
    · cases found
      assumption
    · cases found
      assumption
  · cases found

/-- If the last grid has a point in the interval, the search ends with a point in it. -/
theorem contains_refine {attempts : Nat} {exponent : Int}
    (last : interval.contains (interval.floor (exponent - attempts)) (exponent - attempts)) :
    interval.contains (interval.refine exponent attempts).digits
      (interval.refine exponent attempts).exponent := by
  induction attempts generalizing exponent with
  | zero =>
    rw [Nat.cast_zero, Int.sub_zero] at last
    exact last
  | succ attempts ih =>
    rw [refine]
    split
    · rename_i found
      exact contains_of_gridPoint? found
    · apply ih
      have same : exponent - (attempts + 1 : Nat) = exponent - 1 - attempts := by
        omega
      rw [same] at last
      exact last

/-- The power of ten of the leading digit does not lie above the number. -/
theorem leadingExponent_le (pos : 0 < interval.denominator) (some : 2 ≤ interval.value) :
    (10 ^ interval.leadingExponent * interval.denominator : ℚ) ≤ interval.value := by
  have less : interval.denominator < 2 ^ (Nat.log2 interval.denominator + 1) :=
    (Nat.log2_lt (Nat.ne_of_gt pos)).mp (Nat.lt_succ_self _)
  rw [leadingExponent]
  generalize Nat.log2 interval.denominator = shift at less
  have large : interval.denominator ≤ interval.value * 10 ^ shift :=
    calc
      interval.denominator ≤ 2 * 2 ^ shift := by
        rw [Nat.pow_succ] at less
        omega
      _ ≤ interval.value * 10 ^ shift :=
        Nat.mul_le_mul some (Nat.pow_le_pow_left (by decide) shift)
  have digits := pow_length_le (Nat.div_pos large pos)
  have scaled : (10 ^ ((Nat.toDigits 10 (interval.value * 10 ^ shift /
      interval.denominator)).length - 1) * interval.denominator : ℚ) ≤
        interval.value * 10 ^ shift := by
    exact_mod_cast Nat.le_trans (Nat.mul_le_mul_right _ digits) (Nat.div_mul_le_self _ _)
  have length :
      0 < (Nat.toDigits 10 (interval.value * 10 ^ shift / interval.denominator)).length :=
    Nat.length_toDigits_pos
  rw [Nat.pow_eq]
  generalize (Nat.toDigits 10 (interval.value * 10 ^ shift / interval.denominator)).length = count
    at scaled length ⊢
  have power : (10 : ℚ) ^ (count - 1 - shift : Int) * 10 ^ shift = 10 ^ (count - 1) := by
    rw [← zpow_natCast, ← zpow_natCast, ← zpow_add₀ (by norm_num)]
    congr 1
    omega
  have cancel : (0 : ℚ) < 10 ^ shift := by
    positivity
  apply le_of_mul_le_mul_right _ cancel
  rw [mul_right_comm, power]
  exact scaled

end Interval

namespace Format

variable {format : Format}

/-- The quarters of a unit below and above a code, times the unit. -/
theorem interval_spec {code : Nat} (pos : 0 < code) :
    ∃ unit denominator : Nat, 0 < denominator ∧
      (unit : ℚ) = 2 ^ format.scale code * (2 ^ format.leastExponent * denominator) ∧
      ((format.interval code).low : ℚ) + format.quartersBelow code * unit =
        4 * format.significand code * unit ∧
      (format.interval code).value = 4 * format.significand code * unit ∧
      ((format.interval code).high : ℚ) = 4 * format.significand code * unit + 2 * unit ∧
      (format.interval code).denominator = 4 * denominator := by
  have fraction := powerFraction_eq 1 2 (by decide) (format.unitExponent code)
  have positive := powerFraction_pos 1 2 (by decide) (format.unitExponent code)
  have some : 0 < format.significand code :=
    significand_pos pos
  refine ⟨(powerFraction 1 2 (format.unitExponent code)).1,
    (powerFraction 1 2 (format.unitExponent code)).2, positive, ?_, ?_, rfl, ?_, rfl⟩
  · rw [fraction, unitExponent, Nat.cast_one, Nat.cast_two, zpow_add₀ (by norm_num), zpow_natCast]
    ring
  · change (((4 * format.significand code - format.quartersBelow code) *
      (powerFraction 1 2 (format.unitExponent code)).1 : Nat) : ℚ) + _ = _
    have enough : format.quartersBelow code ≤ 4 * format.significand code := by
      rw [quartersBelow]
      split
      · omega
      · omega
    rw [Nat.cast_mul, Nat.cast_sub enough]
    push_cast
    ring
  · change (((4 * format.significand code + 2) *
      (powerFraction 1 2 (format.unitExponent code)).1 : Nat) : ℚ) = _
    push_cast
    ring

/-- The points that an interval contains are rounded to its code. -/
theorem roundsTo_of_contains {code point : Nat} {exponent : Int} (pos : 0 < code)
    (inside : (format.interval code).contains point exponent) :
    format.RoundsTo code (point * 10 ^ exponent / 2 ^ format.leastExponent) := by
  obtain ⟨unit, denominator, positive, scaled, low, -, high, whole⟩ := interval_spec pos
  obtain ⟨above, below⟩ := Interval.contains_iff.mp inside
  have factor : (0 : ℚ) < 2 ^ format.leastExponent * denominator := by
    positivity
  have position : (4 * (point * 10 ^ exponent / 2 ^ format.leastExponent) *
      (2 ^ format.leastExponent * denominator) : ℚ) =
        point * 10 ^ exponent * (format.interval code).denominator := by
    rw [whole]
    push_cast
    field_simp
  have steps (count : ℚ) : count * 2 ^ format.scale code *
      (2 ^ format.leastExponent * denominator) = count * unit := by
    rw [mul_assoc, ← scaled]
  constructor
  · rw [← precedes_mul _ _ factor, add_mul, position, steps, steps, ← low]
    exact precedes_add.mpr above
  · rw [← precedes_mul _ _ factor, add_mul, position, steps, steps, ← high]
    exact below

/-- The finest grid is finer than a quarter of a unit. -/
theorem finest_lt {code unit : Nat} (unitPos : 0 < unit) {leading : Int} {whole : ℚ}
    (bound : 10 ^ leading * whole ≤ 4 * format.significand code * unit) :
    10 ^ (leading - (format.fractionBits + 2 : Nat)) * whole < unit := by
  have digits : (format.significand code : ℚ) < 2 * 2 ^ format.fractionBits := by
    exact_mod_cast format.significand_lt code
  have unitPos : (0 : ℚ) < unit := by
    exact_mod_cast unitPos
  have power : (10 : ℚ) ^ leading = 10 ^ (leading - (format.fractionBits + 2 : Nat)) *
      10 ^ (format.fractionBits + 2) := by
    rw [← zpow_natCast, ← zpow_add₀ (by norm_num), Int.sub_add_cancel]
  have enough : (8 : ℚ) * 2 ^ format.fractionBits ≤ 10 ^ (format.fractionBits + 2) :=
    calc
      (8 : ℚ) * 2 ^ format.fractionBits ≤ 100 * 10 ^ format.fractionBits :=
        mul_le_mul (by norm_num) (pow_le_pow_left₀ (by norm_num) (by norm_num) _)
          (by positivity) (by norm_num)
      _ = 10 ^ (format.fractionBits + 2) := by
        rw [pow_add, mul_comm]
        norm_num
  have cancel : (0 : ℚ) < 10 ^ (format.fractionBits + 2) := by
    positivity
  apply lt_of_mul_lt_mul_right _ cancel.le
  calc
    10 ^ (leading - (format.fractionBits + 2 : Nat)) * whole * 10 ^ (format.fractionBits + 2)
        = 10 ^ leading * whole := by
      rw [power]
      ring
    _ ≤ 4 * format.significand code * unit := bound
    _ < 8 * 2 ^ format.fractionBits * unit :=
      mul_lt_mul_of_pos_right (by linarith) unitPos
    _ ≤ 10 ^ (format.fractionBits + 2) * unit :=
      mul_le_mul_of_nonneg_right enough unitPos.le
    _ = unit * 10 ^ (format.fractionBits + 2) := mul_comm _ _

/-- The finest grid has a point in the interval. -/
theorem contains_finest {code : Nat} (pos : 0 < code) :
    (format.interval code).contains
      ((format.interval code).floor
        ((format.interval code).leadingExponent - (format.fractionBits + 2 : Nat)))
      ((format.interval code).leadingExponent - (format.fractionBits + 2 : Nat)) := by
  obtain ⟨unit, denominator, positive, scaled, low, value, high, whole⟩ := interval_spec pos
  have unitPos : 0 < unit := by
    have product : (0 : ℚ) < unit := by
      rw [scaled]
      positivity
    exact_mod_cast product
  have wholePos : 0 < (format.interval code).denominator := by
    rw [whole]
    exact Nat.mul_pos (by decide) positive
  have some : 2 ≤ (format.interval code).value := by
    have four : 0 < format.significand code * unit :=
      Nat.mul_pos (significand_pos pos) unitPos
    rw [value, Nat.mul_assoc]
    omega
  have leading := Interval.leadingExponent_le wholePos some
  have cast : ((format.interval code).value : ℚ) = 4 * format.significand code * unit := by
    rw [value]
    push_cast
    rfl
  rw [cast] at leading
  have fine := finest_lt unitPos leading
  generalize (format.interval code).leadingExponent - (format.fractionBits + 2 : Nat) = exponent
    at fine ⊢
  have below := Interval.floor_le wholePos exponent
  have above := Interval.lt_floor wholePos exponent
  have quarters : (unit : ℚ) ≤ format.quartersBelow code * unit := by
    exact_mod_cast Nat.le_mul_of_pos_left unit (format.quartersBelow_pos code)
  rw [cast] at below above
  rw [Interval.contains_iff, mul_assoc]
  constructor
  · apply Precedes.of_lt
    linarith
  · apply Precedes.of_lt
    have positive : (0 : ℚ) < unit := by
      exact_mod_cast unitPos
    linarith

/-- The shortest decimal of a positive finite code lies in its interval. -/
theorem shortest_roundsTo {code : Nat} (pos : 0 < code) :
    format.RoundsTo code
      ((format.shortest code).digits * 10 ^ (format.shortest code).exponent /
        2 ^ format.leastExponent) :=
  roundsTo_of_contains pos (Interval.contains_refine (contains_finest pos))

/-- The shortest decimal of a positive finite code is rounded to it, in whatever way it
is written. -/
theorem nearestCodeOfDecimal_shortest {code digits : Nat} {exponent : Int} (pos : 0 < code)
    (finite : code < format.infinityCode)
    (same : (digits * 10 ^ exponent : ℚ) =
      (format.shortest code).digits * 10 ^ (format.shortest code).exponent) :
    format.nearestCodeOfDecimal digits exponent = code := by
  apply nearestCodeOfDecimal_eq _ pos finite (shortest_roundsTo pos)
  rw [same]
  field_simp

end Format

end GraphMarkup.Decimal
