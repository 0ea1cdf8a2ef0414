import GraphMarkup.Proofs.Value.Written

/-!
# Bit patterns and their texts

A datum of a binary format is given by a pattern of bits: a sign, an exponent and a
fraction. The text of a datum is one word, from which the very same pattern is read back;
only the patterns that stand for "not a number" are not told apart.
-/

namespace GraphMarkup.Decimal

/-! ## Patterns -/

namespace Format

variable (format : Format)

/-- The bit patterns of a format: a sign bit, behind it the exponent and then the fraction. -/
abbrev Pattern : Type :=
  BitVec (format.exponentBits + format.fractionBits + 1)

end Format

namespace Pattern

variable {format : Format}

/-- The exponent bits of a pattern. -/
def exponent (pattern : format.Pattern) : BitVec format.exponentBits :=
  pattern.extractLsb' format.fractionBits format.exponentBits

/-- The fraction bits of a pattern. -/
def fraction (pattern : format.Pattern) : BitVec format.fractionBits :=
  pattern.extractLsb' 0 format.fractionBits

/-- A pattern stands for "not a number" if all its exponent bits are set, and some fraction bit. -/
def IsNaN (pattern : format.Pattern) : Prop :=
  exponent pattern = BitVec.allOnes format.exponentBits ∧ fraction pattern ≠ 0

instance (pattern : format.Pattern) : Decidable (IsNaN pattern) :=
  inferInstanceAs (Decidable (_ ∧ _))

/-- Two patterns stand for the same datum: they are the same, or neither is a number. -/
def SameDatum (first second : format.Pattern) : Prop :=
  if IsNaN first then IsNaN second else first = second

/-- The datum with a pattern. -/
def datum (pattern : format.Pattern) : Binary format :=
  .ofBits pattern.toNat

end Pattern

/-- The pattern of a datum. -/
def Binary.pattern {format : Format} (datum : Binary format) : format.Pattern :=
  BitVec.ofNat _ datum.toBits

/-! ## Codes of patterns -/

namespace Format

variable (format : Format)

theorem signUnit_eq : format.signUnit = Nat.pow 2 format.exponentBits * format.binade :=
  Nat.pow_add 2 format.exponentBits format.fractionBits

theorem binade_le_signUnit : format.binade ≤ format.signUnit := by
  rw [signUnit_eq]
  exact Nat.le_mul_of_pos_left _ (Nat.two_pow_pos format.exponentBits)

/-- The codes of numbers and infinity leave one binade for what is neither. -/
theorem infinityCode_add_binade : format.infinityCode + format.binade = format.signUnit := by
  rw [infinityCode, Nat.sub_mul, Nat.one_mul, ← signUnit_eq,
    Nat.sub_add_cancel format.binade_le_signUnit]

theorem pattern_bound :
    2 ^ (format.exponentBits + format.fractionBits + 1) = 2 * format.signUnit := by
  rw [Nat.pow_succ, Nat.mul_comm]
  rfl

end Format

namespace Pattern

variable {format : Format}

theorem toNat_lt (pattern : format.Pattern) : pattern.toNat < 2 * format.signUnit := by
  rw [← format.pattern_bound]
  exact pattern.isLt

theorem toNat_fraction (pattern : format.Pattern) :
    (fraction pattern).toNat = pattern.toNat % format.binade := by
  rw [fraction, BitVec.extractLsb'_toNat, Nat.shiftRight_zero]
  rfl

theorem toNat_exponent (pattern : format.Pattern) :
    (exponent pattern).toNat =
      pattern.toNat / format.binade % Nat.pow 2 format.exponentBits := by
  rw [exponent, BitVec.extractLsb'_toNat, Nat.shiftRight_eq_div_pow]
  rfl

/-- The bits below the sign are the exponent with the fraction behind it. -/
theorem code_eq (pattern : format.Pattern) :
    pattern.toNat % format.signUnit =
      (exponent pattern).toNat * format.binade + (fraction pattern).toNat := by
  rw [Format.signUnit_eq, Nat.mul_comm, Nat.mod_mul, toNat_exponent, toNat_fraction,
    Nat.mul_comm, Nat.add_comm]

/-- What is not a number has a code beyond infinity. -/
theorem isNaN_iff (pattern : format.Pattern) :
    IsNaN pattern ↔ format.infinityCode < pattern.toNat % format.signUnit := by
  have exponentLt := (exponent pattern).isLt
  have fractionLt : (fraction pattern).toNat < format.binade := (fraction pattern).isLt
  rw [IsNaN, ← BitVec.toNat_inj, BitVec.toNat_allOnes, Ne, ← BitVec.toNat_inj,
    BitVec.ofNat_eq_ofNat, BitVec.toNat_zero, code_eq, Format.infinityCode, Nat.pow_eq]
  generalize (exponent pattern).toNat = exponent at exponentLt ⊢
  generalize (fraction pattern).toNat = fraction at fractionLt ⊢
  constructor
  · rintro ⟨rfl, nonzero⟩
    omega
  · intro beyond
    have full : exponent = 2 ^ format.exponentBits - 1 := by
      by_contra other
      have less : exponent + 1 ≤ 2 ^ format.exponentBits - 1 := by
        omega
      have scaled := Nat.mul_le_mul_right format.binade less
      rw [Nat.add_mul, Nat.one_mul] at scaled
      omega
    subst full
    exact ⟨rfl, by omega⟩

/-- The sign of a pattern stands in front of the other bits. -/
theorem signBits_add_code (pattern : format.Pattern) :
    format.signBits (pattern.toNat / format.signUnit % 2 == 1) +
      pattern.toNat % format.signUnit = pattern.toNat := by
  have unitPos : 0 < format.signUnit := Nat.two_pow_pos _
  have split := Nat.div_add_mod pattern.toNat format.signUnit
  have small : pattern.toNat / format.signUnit < 2 :=
    (Nat.div_lt_iff_lt_mul unitPos).mpr (toNat_lt pattern)
  rw [Format.signBits]
  generalize pattern.toNat / format.signUnit = sign at split small ⊢
  match sign, small with
  | 0, _ => simpa using split
  | 1, _ => simpa using split

/-! ## Data and patterns -/

theorem datum_of_isNaN {pattern : format.Pattern} (notNumber : IsNaN pattern) :
    datum pattern = .nan := by
  rw [datum, Binary.ofBits, if_pos ((isNaN_iff pattern).mp notNumber)]

/-- The bits of a number or an infinity are kept. -/
theorem toBits_datum {pattern : format.Pattern} (number : ¬IsNaN pattern) :
    (datum pattern).toBits = pattern.toNat := by
  have whole := signBits_add_code pattern
  rw [isNaN_iff] at number
  rw [datum, Binary.ofBits, if_neg number, Binary.ofCode]
  split
  · exact whole
  · have infinite : pattern.toNat % format.signUnit = format.infinityCode := by
      omega
    rw [infinite] at whole
    exact whole

/-- "Not a number" has a pattern that stands for it. -/
theorem isNaN_pattern_nan (hasFraction : 0 < format.fractionBits) :
    IsNaN (Binary.nan : Binary format).pattern := by
  have even : 2 ≤ format.binade := Nat.le_self_pow hasFraction.ne' 2
  have below : format.infinityCode + format.binade / 2 < format.signUnit := by
    rw [← format.infinityCode_add_binade]
    omega
  rw [isNaN_iff, Binary.pattern, BitVec.toNat_ofNat, format.pattern_bound, Binary.toBits,
    Nat.mod_eq_of_lt (Nat.lt_of_lt_of_le below (Nat.le_mul_of_pos_left _ Nat.two_pos)),
    Nat.mod_eq_of_lt below]
  omega

/-- A pattern is that of its datum. -/
theorem sameDatum_pattern_datum (hasFraction : 0 < format.fractionBits) (pattern : format.Pattern) :
    SameDatum pattern (datum pattern).pattern := by
  rw [SameDatum]
  split
  · rename_i notNumber
    rw [datum_of_isNaN notNumber]
    exact isNaN_pattern_nan hasFraction
  · rename_i number
    rw [Binary.pattern, toBits_datum number, BitVec.ofNat_toNat, BitVec.setWidth_eq]

end Pattern

end GraphMarkup.Decimal

namespace GraphMarkup.Value

open GraphMarkup.Decimal
open GraphMarkup.Text

/-! ## Texts of patterns -/

/-- A text can stand in a list: it is not empty, has no blank character, and is not the word for an
absent list. -/
structure IsWord (text : String) : Prop where
  ne_empty : text ≠ ""
  solid : ∀ char ∈ text.toList, isBlank char = false
  ne_absentText : text ≠ absentText

/-- Texts keep the patterns of a format: every datum is written as a word, alone and in a list, from
which a datum of its pattern is read. -/
structure KeepsPatterns (format : Format) (read : String → Except ValueError (Binary format))
    (write : Binary format → String)
    (readList : String → Except ValueError (List (Binary format)))
    (writeList : List (Binary format) → String) : Prop where
  read_write : ∀ pattern : format.Pattern, ∃ datum,
    read (write (Pattern.datum pattern)) = .ok datum ∧ Pattern.SameDatum pattern datum.pattern
  isWord_write : ∀ pattern : format.Pattern, IsWord (write (Pattern.datum pattern))
  readList_writeList : ∀ patterns : List format.Pattern, ∃ data,
    readList (writeList (patterns.map Pattern.datum)) = .ok data ∧
      List.Forall₂ (fun pattern datum => Pattern.SameDatum pattern datum.pattern) patterns data

/-- The text of a number is a word. -/
theorem isWord_write {kind : ScalarKind} (notString : kind ≠ .string) (value : kind.Carrier) :
    IsWord (kind.write value) where
  ne_empty := write_ne_empty notString value
  solid char member := isBlank_of_marked (mem_write notString value char member)
  ne_absentText absent := by
    have letter : 'n' ∈ (kind.write value).toList := by
      rw [absent]
      decide
    rcases mem_write notString value 'n' letter with digit | mark
    · cases digit
    · revert mark
      decide

/-- Texts that are words and are read back keep the patterns of a format with a fraction. -/
theorem KeepsPatterns.of_read_write {format : Format} (hasFraction : 0 < format.fractionBits)
    {read : String → Except ValueError (Binary format)} {write : Binary format → String}
    {readList : String → Except ValueError (List (Binary format))}
    {writeList : List (Binary format) → String} (kept : ∀ datum, read (write datum) = .ok datum)
    (word : ∀ datum, IsWord (write datum))
    (keptList : ∀ data, readList (writeList data) = .ok data) :
    KeepsPatterns format read write readList writeList where
  read_write pattern := ⟨_, kept _, Pattern.sameDatum_pattern_datum hasFraction pattern⟩
  isWord_write pattern := word _
  readList_writeList patterns := by
    refine ⟨_, keptList _, ?_⟩
    rw [List.forall₂_map_right_iff, List.forall₂_same]
    exact fun pattern _ => Pattern.sameDatum_pattern_datum hasFraction pattern

/-- Every single and every double, whatever its bits, is written as a word from which the same bits
are read, or "not a number" if it was none; and so is every list of them. -/
theorem write_keepsPatterns :
    KeepsPatterns .single ScalarKind.float.read ScalarKind.float.write
        (ValueKind.list .float).read (ValueKind.list .float).write ∧
      KeepsPatterns .double ScalarKind.double.read ScalarKind.double.write
        (ValueKind.list .double).read (ValueKind.list .double).write := by
  constructor
  · apply KeepsPatterns.of_read_write (by decide) (read_write .float)
    · exact isWord_write (by decide : ScalarKind.float ≠ .string)
    · exact fun data => read_write_of_representable trivial
  · apply KeepsPatterns.of_read_write (by decide) (read_write .double)
    · exact isWord_write (by decide : ScalarKind.double ≠ .string)
    · exact fun data => read_write_of_representable trivial

/-- Ten to the power sixteen has an exponent, and the number below it has none. -/
example :
    ScalarKind.double.write (Pattern.datum (0x4341C37937E08000 : BitVec 64)) = "1e16" ∧
      ScalarKind.double.write (Pattern.datum (0x4341C37937E07FFF : BitVec 64)) =
        "9999999999999998" := by
  decide +kernel

end GraphMarkup.Value
