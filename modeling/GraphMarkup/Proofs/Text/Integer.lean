import GraphMarkup.Proofs.Result
import GraphMarkup.Proofs.Text.Blank
import GraphMarkup.Text.Integer

/-!
# Reading written integers

The digits of a number are read back as the number if it is in range, and so is
the text of an integer. Nothing but digits and a sign is read as a natural number.
-/

namespace GraphMarkup.Text

theorem isDigit_iff {char : Char} : char.isDigit ↔ 48 ≤ char.toNat ∧ char.toNat ≤ 57 := by
  simp only [Char.isDigit, Bool.and_eq_true, decide_eq_true_eq, ge_iff_le, UInt32.le_iff_toNat_le]
  rfl

/-- Digits are not blank. -/
theorem isBlank_of_isDigit {char : Char} (digit : char.isDigit) : isBlank char = false := by
  have codes := isDigit_iff.mp digit
  simp only [isBlank, Bool.or_eq_false_iff, Bool.and_eq_false_iff, decide_eq_false_iff_not,
    beq_eq_false_iff_ne, ne_eq]
  omega

/-- Decimal digits have the values that their codes say. -/
theorem digitValue?_of_isDigit {char : Char} (digit : char.isDigit) :
    digitValue? 10 char = some (char.toNat - '0'.toNat) := by
  have codes := isDigit_iff.mp digit
  have decimal : '0' ≤ char ∧ char ≤ '9' := by
    simp only [Char.le_def, UInt32.le_iff_toNat_le]
    exact codes
  have zero : '0'.toNat = 48 := rfl
  have small : char.toNat - '0'.toNat < 10 := by
    omega
  rw [digitValue?, if_pos decimal]
  exact Option.filter_some_pos (decide_eq_true small)

/-- Further digits do not make a number smaller. -/
theorem le_ofDigitChars (digits : List Char) (value : Nat) :
    value ≤ Nat.ofDigitChars 10 digits value := by
  induction digits generalizing value with
  | nil => rw [Nat.ofDigitChars_nil]
  | cons digit digits ih =>
    rw [Nat.ofDigitChars_cons]
    have grown := ih (10 * value + (digit.toNat - '0'.toNat))
    omega

/-- Digits are read as the number that they denote, if it is in range. -/
theorem readDigits_eq_ok {digits : List Char} (decimal : ∀ digit ∈ digits, digit.isDigit)
    {bound value : Nat} (fits : Nat.ofDigitChars 10 digits value ≤ bound)
    (overflow : IntegerError) :
    readDigits 10 bound overflow value digits = .ok (Nat.ofDigitChars 10 digits value) := by
  induction digits generalizing value with
  | nil => rw [readDigits, Nat.ofDigitChars_nil]
  | cons digit digits ih =>
    rw [Nat.ofDigitChars_cons, Nat.mul_comm 10 value] at fits ⊢
    have inside := Nat.le_trans (le_ofDigitChars digits _) fits
    rw [readDigits, digitValue?_of_isDigit (decimal digit List.mem_cons_self)]
    dsimp only
    rw [if_neg (Nat.not_lt.mpr inside)]
    exact ih (fun other member => decimal other (List.mem_cons_of_mem _ member)) fits

theorem isDigit_of_digitValue? {char : Char} {digit : Nat}
    (found : digitValue? 10 char = some digit) : char.isDigit := by
  rw [digitValue?, Option.filter_eq_some_iff, decide_eq_true_eq] at found
  obtain ⟨value, small⟩ := found
  split at value
  · rename_i decimal
    simp only [Char.le_def, UInt32.le_iff_toNat_le] at decimal
    exact isDigit_iff.mpr decimal
  -- Digits above nine are letters, whose values are too great.
  · split at value
    · cases value
      omega
    · split at value
      · cases value
        omega
      · cases value

/-- What is read digit by digit is digits of a number in range. -/
theorem readDigits_eq_ok_iff {digits : List Char} {bound value : Nat} (inside : value ≤ bound)
    {overflow : IntegerError} {number : Nat} :
    readDigits 10 bound overflow value digits = .ok number ↔
      (∀ digit ∈ digits, digit.isDigit) ∧ Nat.ofDigitChars 10 digits value = number ∧
        number ≤ bound := by
  constructor
  · intro read
    induction digits generalizing value with
    | nil =>
      cases read
      exact ⟨List.forall_mem_nil _, Nat.ofDigitChars_nil, inside⟩
    | cons digit digits ih =>
      rw [readDigits] at read
      split at read
      · cases read
      · rename_i found
        have decimal := isDigit_of_digitValue? found
        cases found.symm.trans (digitValue?_of_isDigit decimal)
        dsimp only at read
        split at read
        · cases read
        · rename_i fits
          obtain ⟨others, same, below⟩ := ih (Nat.not_lt.mp fits) read
          rw [Nat.mul_comm] at same
          exact ⟨List.forall_mem_cons.mpr ⟨decimal, others⟩,
            (Nat.ofDigitChars_cons ..).trans same, below⟩
  · rintro ⟨decimal, rfl, below⟩
    exact readDigits_eq_ok decimal below overflow

/-- Digits denote a number: there is one at least, and all of them are decimal. -/
structure Denotes (digits : List Char) (number : Nat) : Prop where
  nonempty : digits ≠ []
  decimal : ∀ digit ∈ digits, digit.isDigit
  value : Nat.ofDigitChars 10 digits 0 = number

instance (digits : List Char) (number : Nat) : Decidable (Denotes digits number) :=
  decidable_of_iff
    (digits ≠ [] ∧ (∀ digit ∈ digits, digit.isDigit) ∧ Nat.ofDigitChars 10 digits 0 = number)
    ⟨fun ⟨nonempty, decimal, value⟩ => ⟨nonempty, decimal, value⟩,
    fun ⟨nonempty, decimal, value⟩ => ⟨nonempty, decimal, value⟩⟩

theorem readMagnitude_eq_ok_iff {chars : List Char} {bound number : Nat}
    {overflow absent : IntegerError} :
    readMagnitude 10 bound overflow absent chars = .ok number ↔
      Denotes chars number ∧ number ≤ bound := by
  cases chars with
  | nil =>
    constructor
    · intro read
      cases read
    · rintro ⟨⟨nonempty, -, -⟩, -⟩
      exact absurd rfl nonempty
  | cons first rest =>
    rw [readMagnitude, readDigits_eq_ok_iff (Nat.zero_le bound)]
    · constructor
      · rintro ⟨decimal, value, below⟩
        exact ⟨⟨List.cons_ne_nil _ _, decimal, value⟩, below⟩
      · rintro ⟨⟨-, decimal, value⟩, below⟩
        exact ⟨decimal, value, below⟩
    · exact List.cons_ne_nil _ _

/-- What is read as a natural number is digits that denote one in range, behind a plus sign or
none. -/
theorem readNatural_eq_ok_iff {chars : List Char} {bound number : Nat} :
    readNatural 10 bound chars = .ok number ↔
      ∃ digits, (chars = digits ∨ chars = '+' :: digits) ∧ Denotes digits number ∧
        number ≤ bound := by
  have signed {digits : List Char} : ¬Denotes ('+' :: digits) number := fun denotes => by
    cases denotes.decimal '+' List.mem_cons_self
  unfold readNatural
  split
  · rename_i rest
    rw [readMagnitude_eq_ok_iff]
    constructor
    · exact fun read => ⟨rest, .inr rfl, read⟩
    · rintro ⟨digits, rfl | same, denotes, below⟩
      · exact absurd denotes signed
      · cases same
        exact ⟨denotes, below⟩
  · rename_i unsigned
    rw [readMagnitude_eq_ok_iff]
    constructor
    · exact fun read => ⟨chars, .inl rfl, read⟩
    · rintro ⟨digits, rfl | rfl, read⟩
      · exact read
      · exact absurd rfl (unsigned digits)

theorem isDigit_of_mem_toDigits {number : Nat} {digit : Char}
    (member : digit ∈ Nat.toDigits 10 number) : digit.isDigit :=
  Nat.isDigit_of_mem_toDigits (by decide) (by decide) member

theorem readMagnitude_toDigits {number bound : Nat} (fits : number ≤ bound)
    (overflow absent : IntegerError) :
    readMagnitude 10 bound overflow absent (Nat.toDigits 10 number) = .ok number := by
  have value : Nat.ofDigitChars 10 (Nat.toDigits 10 number) 0 = number :=
    Nat.ofDigitChars_ten_toDigits
  have read := readDigits_eq_ok (fun _ => isDigit_of_mem_toDigits) (value.symm ▸ fits) overflow
  rw [value] at read
  have some : Nat.toDigits 10 number ≠ [] := Nat.toDigits_ne_nil
  obtain ⟨first, rest, same⟩ := List.exists_cons_of_ne_nil some
  rw [same] at read ⊢
  exact read

/-- The digits of a number begin with no sign. -/
theorem toDigits_eq_cons (number : Nat) :
    ∃ first rest, Nat.toDigits 10 number = first :: rest ∧ first ≠ '+' ∧ first ≠ '-' := by
  have some : Nat.toDigits 10 number ≠ [] := Nat.toDigits_ne_nil
  obtain ⟨first, rest, same⟩ := List.exists_cons_of_ne_nil some
  have digit : first.isDigit := by
    apply isDigit_of_mem_toDigits
    rw [same]
    exact List.mem_cons_self
  refine ⟨first, rest, same, ?_, ?_⟩
  · rintro rfl
    cases digit
  · rintro rfl
    cases digit

/-- The digits of a natural number are read back. -/
theorem readNatural_toDigits {number bound : Nat} (fits : number ≤ bound) :
    readNatural 10 bound (Nat.toDigits 10 number) = .ok number := by
  obtain ⟨first, rest, same, noPlus, _⟩ := toDigits_eq_cons number
  have read := readMagnitude_toDigits fits .tooLarge .empty
  rw [same] at read ⊢
  rw [readNatural]
  · exact read
  · intro rest'
    rintro ⟨⟩
    exact noPlus rfl

/-- The text of an integer is read back. -/
theorem readInteger_integerText {number : Int} {bound : Nat} (above : -(bound + 1 : Int) ≤ number)
    (below : number ≤ bound) : readInteger bound (integerText number).toList = .ok number := by
  rw [integerText, String.toList_ofList, naturalDigits]
  by_cases negative : number < 0
  · have fits : number.natAbs ≤ bound + 1 := by
      omega
    rw [if_pos negative, readInteger, readMagnitude_toDigits fits]
    have back : -Int.ofNat number.natAbs = number := by
      rw [Int.ofNat_eq_natCast, Int.ofNat_natAbs_of_nonpos (Int.le_of_lt negative), Int.neg_neg]
    exact congrArg Except.ok back
  · have fits : number.natAbs ≤ bound := by
      omega
    have back : Int.ofNat number.natAbs = number :=
      Int.natAbs_of_nonneg (Int.not_lt.mp negative)
    obtain ⟨first, rest, same, noPlus, noMinus⟩ := toDigits_eq_cons number.natAbs
    have read := readMagnitude_toDigits fits .tooLarge .empty
    rw [if_neg negative]
    rw [same] at read ⊢
    rw [readInteger, read]
    · exact congrArg Except.ok back
    · rintro rest' ⟨⟩
      exact noPlus rfl
    · rintro rest' ⟨⟩
      exact noMinus rfl

/-- The text of an integer consists of digits and a sign. -/
theorem mem_integerText {number : Int} :
    ∀ char ∈ (integerText number).toList, char = '-' ∨ char.isDigit := by
  intro char member
  rw [integerText, String.toList_ofList, naturalDigits] at member
  split at member
  · rcases List.mem_cons.mp member with sign | digit
    · exact Or.inl sign
    · exact Or.inr (isDigit_of_mem_toDigits digit)
  · exact Or.inr (isDigit_of_mem_toDigits member)

theorem trim_integerText (number : Int) : trim (integerText number) = integerText number := by
  apply trim_eq_self
  intro char member
  rcases mem_integerText char member with rfl | digit
  · rfl
  · exact isBlank_of_isDigit digit

end GraphMarkup.Text
