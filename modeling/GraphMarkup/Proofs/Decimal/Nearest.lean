import GraphMarkup.Proofs.Decimal.Rounding

/-!
# The nearest code

A decimal in the rounding interval of a positive finite code is rounded to that
code, however its digits and its exponent are chosen. The two shortcuts for
decimals far outside the range of a format are never taken for such decimals.
-/

namespace GraphMarkup.Decimal

/-! ## Magnitudes -/

/-- The number of digits bounds a number from above. -/
theorem lt_pow_length (number : Nat) : number < 10 ^ (Nat.toDigits 10 number).length :=
  (Nat.length_toDigits_le_iff (by decide) Nat.length_toDigits_pos).mp (Nat.le_refl _)

/-- The number of digits bounds a positive number from below. -/
theorem pow_length_le {number : Nat} (pos : 0 < number) :
    10 ^ ((Nat.toDigits 10 number).length - 1) ≤ number := by
  by_cases single : (Nat.toDigits 10 number).length - 1 = 0
  · rw [single]
    exact pos
  · by_contra less
    have shorter := (Nat.length_toDigits_le_iff (by decide) (Nat.pos_of_ne_zero single)).mpr
      (Nat.not_le.mp less)
    omega

/-- A decimal lies below the power of ten behind its leading digit. -/
theorem decimal_lt (digits : Nat) (exponent : Int) :
    (digits : ℚ) * 10 ^ exponent < 10 ^ (exponent + (Nat.toDigits 10 digits).length) := by
  have bound : (digits : ℚ) < 10 ^ (Nat.toDigits 10 digits).length := by
    exact_mod_cast lt_pow_length digits
  rw [zpow_add₀ (by norm_num), mul_comm, zpow_natCast]
  exact mul_lt_mul_of_pos_left bound (by positivity)

/-- A decimal other than zero does not lie below the power of ten of its leading digit. -/
theorem le_decimal {digits : Nat} (pos : 0 < digits) (exponent : Int) :
    (10 : ℚ) ^ (exponent + (Nat.toDigits 10 digits).length - 1) ≤ digits * 10 ^ exponent := by
  have length : 0 < (Nat.toDigits 10 digits).length :=
    Nat.length_toDigits_pos
  have bound : (10 : ℚ) ^ ((Nat.toDigits 10 digits).length - 1) ≤ digits := by
    exact_mod_cast pow_length_le pos
  have split : exponent + (Nat.toDigits 10 digits).length - 1 =
      exponent + ((Nat.toDigits 10 digits).length - 1 : Nat) := by
    omega
  rw [split, zpow_add₀ (by norm_num), mul_comm, zpow_natCast]
  exact mul_le_mul_of_nonneg_right bound (by positivity)

/-- From one downwards the powers of ten lie below those of two. -/
theorem ten_zpow_le {exponent : Int} (small : exponent ≤ 0) :
    (10 : ℚ) ^ exponent ≤ 2 ^ exponent := by
  obtain ⟨power, rfl⟩ := Int.exists_eq_neg_ofNat small
  rw [zpow_neg, zpow_neg, zpow_natCast, zpow_natCast]
  exact inv_anti₀ (by positivity) (pow_le_pow_left₀ (by norm_num) (by norm_num) _)

namespace Format

variable {format : Format}

/-- The numbers in the interval of a positive code are at least half a unit. -/
theorem RoundsTo.half_le {code : Nat} {number : ℚ} (rounds : format.RoundsTo code number)
    (pos : 0 < code) : 1 / 2 ≤ number := by
  have some : (1 : ℚ) ≤ format.significand code := by
    exact_mod_cast significand_pos pos
  have step : (1 : ℚ) ≤ 2 ^ format.scale code :=
    one_le_pow₀ (by norm_num)
  have quarters : (format.quartersBelow code : ℚ) * 2 ^ format.scale code ≤
      2 * 2 ^ format.scale code := by
    exact_mod_cast format.quartersBelow_mul_le code (2 ^ format.scale code)
  have low := rounds.low.le
  have whole : (2 : ℚ) ^ format.scale code ≤
      format.significand code * 2 ^ format.scale code :=
    le_mul_of_one_le_left (by positivity) some
  linarith

theorem exponentLimit_pos (format : Format) : 0 < format.exponentLimit :=
  Nat.two_pow_pos _

/-- The scales of finite codes are bounded. -/
theorem scale_add_two_le {code : Nat} (finite : code < format.infinityCode) :
    format.scale code + 2 ≤ 2 * format.exponentLimit := by
  have exponents : 2 ^ format.exponentBits ≤ 2 * format.exponentLimit := by
    rw [exponentLimit, Nat.pow_eq]
    cases format.exponentBits with
    | zero => decide
    | succ bits => rw [Nat.pow_succ, Nat.add_sub_cancel, Nat.mul_comm]
  have limit := format.exponentLimit_pos
  rw [infinityCode, Nat.pow_eq] at finite
  have quotient := (Nat.div_lt_iff_lt_mul format.binade_pos).mpr finite
  rw [scale]
  generalize code / format.binade = exponent at quotient
  omega

/-- The numbers in the intervals of finite codes are bounded. -/
theorem RoundsTo.lt {code : Nat} {number : ℚ} (rounds : format.RoundsTo code number)
    (finite : code < format.infinityCode) :
    number * 2 ^ format.leastExponent < 2 ^ (format.exponentLimit + 1) := by
  have digits : (format.significand code : ℚ) + 1 ≤ 2 * format.binade := by
    exact_mod_cast format.significand_lt code
  have high := rounds.high.le
  have inBinade : number < 2 * format.binade * 2 ^ format.scale code := by
    have step : (0 : ℚ) < 2 ^ format.scale code := by
      positivity
    have scaled := mul_le_mul_of_nonneg_right digits step.le
    linarith
  have bound := scale_add_two_le finite
  calc
    number * 2 ^ format.leastExponent
        < 2 * format.binade * 2 ^ format.scale code * 2 ^ format.leastExponent :=
      mul_lt_mul_of_pos_right inBinade (by positivity)
    _ = 2 ^ (1 + format.fractionBits + format.scale code + format.leastExponent : Int) := by
      rw [zpow_add₀ (by norm_num), zpow_add₀ (by norm_num), zpow_add₀ (by norm_num), binade]
      simp
    _ ≤ 2 ^ ((format.exponentLimit + 1 : Nat) : Int) := by
      apply zpow_le_zpow_right₀ (by norm_num)
      rw [leastExponent]
      omega
    _ = 2 ^ (format.exponentLimit + 1) := zpow_natCast _ _

/-! ## Rounding decimals -/

/-- A fraction in the interval of a code is rounded to it. -/
theorem nearestCode_eq {numerator denominator code : Nat} {number : ℚ} (pos : 0 < denominator)
    (same : number * 2 ^ format.leastExponent * denominator = numerator)
    (rounds : format.RoundsTo code number) : format.nearestCode numerator denominator = code := by
  have units := powerFraction_eq numerator 2 (by decide) (-format.leastExponent)
  have unitsPos := powerFraction_pos numerator 2 (by decide) (-format.leastExponent)
  change format.codeOfUnits (powerFraction numerator 2 (-format.leastExponent)).1
    (denominator * (powerFraction numerator 2 (-format.leastExponent)).2) = code
  apply codeOfUnits_of_roundsTo (Nat.mul_pos pos unitsPos) _ rounds
  rw [units, ← same, zpow_neg]
  push_cast
  field_simp

/-- A decimal from half the least number on is not taken to be too small. -/
theorem leastExponent_le_of_le {digits : Nat} {exponent : Int}
    (large : (2 : ℚ) ^ (format.leastExponent - 1) ≤ digits * 10 ^ exponent) :
    format.leastExponent ≤ exponent + (Nat.toDigits 10 digits).length := by
  have limit := format.exponentLimit_pos
  have least : format.leastExponent ≤ 1 := by
    rw [leastExponent]
    omega
  by_contra less
  have bound : (10 : ℚ) ^ (exponent + (Nat.toDigits 10 digits).length) ≤
      2 ^ (format.leastExponent - 1) :=
    calc
      (10 : ℚ) ^ (exponent + (Nat.toDigits 10 digits).length)
          ≤ 10 ^ (format.leastExponent - 1) :=
        zpow_le_zpow_right₀ (by norm_num) (by omega)
      _ ≤ 2 ^ (format.leastExponent - 1) := ten_zpow_le (by omega)
  linarith [decimal_lt digits exponent]

/-- A positive decimal in the range of a format is not taken to be too large. -/
theorem le_exponentLimit_of_lt {digits : Nat} (some : 0 < digits) {exponent : Int}
    (small : (digits : ℚ) * 10 ^ exponent < 2 ^ (format.exponentLimit + 1)) :
    exponent + (Nat.toDigits 10 digits).length ≤ format.exponentLimit := by
  have limit := format.exponentLimit_pos
  by_contra more
  have bound : (2 : ℚ) ^ (format.exponentLimit + 1) ≤
      10 ^ (exponent + (Nat.toDigits 10 digits).length - 1) :=
    calc
      (2 : ℚ) ^ (format.exponentLimit + 1) ≤ 2 ^ (2 * format.exponentLimit) :=
        pow_le_pow_right₀ (by norm_num) (by omega)
      _ = 4 ^ format.exponentLimit := by
        rw [pow_mul]
        norm_num
      _ ≤ 10 ^ format.exponentLimit := pow_le_pow_left₀ (by norm_num) (by norm_num) _
      _ = 10 ^ (format.exponentLimit : Int) := (zpow_natCast _ _).symm
      _ ≤ 10 ^ (exponent + (Nat.toDigits 10 digits).length - 1) :=
        zpow_le_zpow_right₀ (by norm_num) (by omega)
  linarith [le_decimal some exponent]

/-- Zero is rounded to zero. -/
theorem nearestCodeOfDecimal_zero (format : Format) (exponent : Int) :
    format.nearestCodeOfDecimal 0 exponent = 0 := by
  rw [nearestCodeOfDecimal, if_pos (Or.inl rfl)]

/-- A decimal in the interval of a positive finite code is rounded to it. -/
theorem nearestCodeOfDecimal_eq {digits code : Nat} {exponent : Int} {number : ℚ}
    (same : number * 2 ^ format.leastExponent = digits * 10 ^ exponent) (pos : 0 < code)
    (finite : code < format.infinityCode) (rounds : format.RoundsTo code number) :
    format.nearestCodeOfDecimal digits exponent = code := by
  have low := rounds.half_le pos
  have high := rounds.lt finite
  rw [same] at high
  have large : (2 : ℚ) ^ (format.leastExponent - 1) ≤ digits * 10 ^ exponent := by
    rw [← same, zpow_sub_one₀ (by norm_num), mul_comm]
    exact mul_le_mul_of_nonneg_right (by linarith) (by positivity)
  have some : digits ≠ 0 := by
    rintro rfl
    have positive : (0 : ℚ) < 2 ^ (format.leastExponent - 1) := by
      positivity
    rw [Nat.cast_zero, zero_mul] at large
    linarith
  have aboveLeast := leastExponent_le_of_le large
  have belowLimit := le_exponentLimit_of_lt (Nat.pos_of_ne_zero some) high
  rw [nearestCodeOfDecimal, if_neg (not_or.mpr ⟨some, Int.not_lt.mpr aboveLeast⟩),
    if_neg (Int.not_lt.mpr belowLimit)]
  apply nearestCode_eq (powerFraction_pos digits 10 (by decide) exponent) _ rounds
  have fraction := powerFraction_eq digits 10 (by decide) exponent
  rw [Nat.cast_ofNat] at fraction
  rw [same]
  exact fraction.symm

end Format

end GraphMarkup.Decimal
