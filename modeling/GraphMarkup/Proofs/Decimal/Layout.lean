import GraphMarkup.Decimal.Layout
import GraphMarkup.Decimal.Reading
import GraphMarkup.Proofs.Text.Integer
import Mathlib.Algebra.Order.Field.Rat
import Mathlib.Algebra.Order.Field.Power
import Mathlib.Tactic.FieldSimp
import Mathlib.Tactic.Ring

/-!
# Reading laid out decimals

Both layouts of a decimal are texts of one form: digits, a point and more digits
unless there are none, and possibly an exponent. A text of this form is read as the
number that its parts denote, and the parts of a layout denote the number that is
laid out.
-/

namespace GraphMarkup.Decimal

open GraphMarkup.Text

theorem digitsValue_toDigits (number : Nat) : digitsValue 0 (Nat.toDigits 10 number) = number :=
  Nat.ofDigitChars_ten_toDigits

/-- A text that begins with a digit has no sign. -/
theorem readSign_of_isDigit {first : Char} (digit : first.isDigit) (rest : List Char) :
    readSign (first :: rest) = (false, first :: rest) := by
  rw [readSign]
  · rintro rest' ⟨⟩
    cases digit
  · rintro rest' ⟨⟩
    cases digit

/-! ## Parts of a decimal -/

/-- The parts that the text of an unsigned decimal is made of. -/
structure Parts where
  whole : List Char
  fraction : List Char
  exponent? : Option Int

namespace Parts

/-- The point and the digits behind it. -/
def fractionText : List Char → List Char
  | [] => []
  | digit :: digits => '.' :: digit :: digits

theorem fractionText_of_ne_nil {digits : List Char} (some : digits ≠ []) :
    fractionText digits = '.' :: digits := by
  cases digits with
  | nil => exact absurd rfl some
  | cons digit digits => rfl

/-- The exponent behind its marker. -/
def exponentText : Option Int → List Char
  | none => []
  | some exponent =>
      'e' :: (if exponent < 0 then ['-'] else []) ++ Nat.toDigits 10 exponent.natAbs

/-- The text of an unsigned decimal. -/
def text (parts : Parts) : List Char :=
  parts.whole ++ fractionText parts.fraction ++ exponentText parts.exponent?

/-- The parts consist of digits, and there is one in front of the point. -/
structure WellFormed (parts : Parts) : Prop where
  notEmpty : parts.whole ≠ []
  whole : ∀ digit ∈ parts.whole, digit.isDigit
  fraction : ∀ digit ∈ parts.fraction, digit.isDigit

/-- The exponent of a text is read back. -/
theorem readExponent?_exponentText (exponent? : Option Int) :
    readExponent? (exponentText exponent?) = some (exponent?.getD 0) := by
  cases exponent? with
  | none => rfl
  | some exponent =>
    have digits : (Nat.toDigits 10 exponent.natAbs).all Char.isDigit :=
      List.all_eq_true.mpr fun _ => isDigit_of_mem_toDigits
    have sign : readSign ((if exponent < 0 then ['-'] else []) ++
        Nat.toDigits 10 exponent.natAbs) =
          (decide (exponent < 0), Nat.toDigits 10 exponent.natAbs) := by
      split
      · rename_i negative
        rw [decide_eq_true negative]
        rfl
      · rename_i positive
        have some : Nat.toDigits 10 exponent.natAbs ≠ [] := Nat.toDigits_ne_nil
        obtain ⟨first, rest, same⟩ := List.exists_cons_of_ne_nil some
        rw [same, List.all_cons, Bool.and_eq_true] at digits
        rw [decide_eq_false positive, same]
        exact readSign_of_isDigit digits.1 rest
    have some : (Nat.toDigits 10 exponent.natAbs).isEmpty = false :=
      List.isEmpty_eq_false_iff.mpr Nat.toDigits_ne_nil
    rw [exponentText, List.cons_append, readExponent?, sign]
    dsimp only
    rw [digits, some, digitsValue_toDigits]
    by_cases negative : exponent < 0
    · have back : -Int.ofNat exponent.natAbs = exponent := by
        rw [Int.ofNat_eq_natCast, Int.ofNat_natAbs_of_nonpos (Int.le_of_lt negative), Int.neg_neg]
      rw [decide_eq_true negative, if_pos rfl, back]
      rfl
    · have back : Int.ofNat exponent.natAbs = exponent :=
        Int.natAbs_of_nonneg (Int.not_lt.mp negative)
      rw [decide_eq_false negative, if_neg Bool.false_ne_true, back]
      rfl

/-- What stands behind the digits of a text begins with no digit. -/
theorem takeWhile_exponentText (exponent? : Option Int) :
    (exponentText exponent?).takeWhile Char.isDigit = [] := by
  cases exponent? with
  | none => rfl
  | some exponent => rfl

theorem dropWhile_exponentText (exponent? : Option Int) :
    (exponentText exponent?).dropWhile Char.isDigit = exponentText exponent? := by
  cases exponent? with
  | none => rfl
  | some exponent => rfl

/-- The digits behind a point, if there is one, and what stands behind them. -/
def cutFraction : List Char → List Char × List Char
  | '.' :: rest => (rest.takeWhile Char.isDigit, rest.dropWhile Char.isDigit)
  | rest => ([], rest)

/-- The fraction is cut off where the exponent begins. -/
theorem cutFraction_text {fraction : List Char} (digits : ∀ digit ∈ fraction, digit.isDigit)
    (exponent? : Option Int) :
    cutFraction (fractionText fraction ++ exponentText exponent?) =
      (fraction, exponentText exponent?) := by
  cases fraction with
  | nil =>
    cases exponent? with
    | none => rfl
    | some exponent => rfl
  | cons digit others =>
    rw [fractionText, List.cons_append, cutFraction, List.takeWhile_append_of_pos digits,
      List.dropWhile_append_of_pos digits, takeWhile_exponentText, dropWhile_exponentText,
      List.append_nil]

/-- The digits in front of the point are followed by no digit. -/
theorem span_fractionText (fraction : List Char) (exponent? : Option Int) :
    (fractionText fraction ++ exponentText exponent?).takeWhile Char.isDigit = [] ∧
      (fractionText fraction ++ exponentText exponent?).dropWhile Char.isDigit =
        fractionText fraction ++ exponentText exponent? := by
  cases fraction with
  | nil => exact ⟨takeWhile_exponentText exponent?, dropWhile_exponentText exponent?⟩
  | cons digit others => exact ⟨rfl, rfl⟩

/-- The text of a decimal is read as its digits and the exponent of the last one. -/
theorem readUnsigned?_text {parts : Parts} (wellFormed : parts.WellFormed) :
    readUnsigned? parts.text =
      some (digitsValue 0 (parts.whole ++ parts.fraction),
        parts.exponent?.getD 0 - parts.fraction.length) := by
  have notEmpty : parts.whole.isEmpty = false :=
    List.isEmpty_eq_false_iff.mpr wellFormed.notEmpty
  obtain ⟨taken, dropped⟩ := span_fractionText parts.fraction parts.exponent?
  have whole : parts.text.takeWhile Char.isDigit = parts.whole := by
    rw [text, List.append_assoc, List.takeWhile_append_of_pos wellFormed.whole, taken,
      List.append_nil]
  have behind : parts.text.dropWhile Char.isDigit =
      fractionText parts.fraction ++ exponentText parts.exponent? := by
    rw [text, List.append_assoc, List.dropWhile_append_of_pos wellFormed.whole, dropped]
  have cut := cutFraction_text wellFormed.fraction parts.exponent?
  have unfolded : readUnsigned? parts.text =
      if (parts.text.takeWhile Char.isDigit).isEmpty &&
          (cutFraction (parts.text.dropWhile Char.isDigit)).1.isEmpty then none
      else
        (readExponent? (cutFraction (parts.text.dropWhile Char.isDigit)).2).map
          fun (exponent : Int) =>
            (digitsValue 0 (parts.text.takeWhile Char.isDigit ++
              (cutFraction (parts.text.dropWhile Char.isDigit)).1),
              exponent - (cutFraction (parts.text.dropWhile Char.isDigit)).1.length) :=
    rfl
  rw [unfolded, whole, behind, cut, notEmpty, Bool.false_and, if_neg Bool.false_ne_true,
    readExponent?_exponentText]
  rfl

/-- The text of a decimal begins with a digit. -/
theorem text_eq_cons {parts : Parts} (wellFormed : parts.WellFormed) :
    ∃ first rest, parts.text = first :: rest ∧ first.isDigit := by
  obtain ⟨first, rest, same⟩ := List.exists_cons_of_ne_nil wellFormed.notEmpty
  refine ⟨first, rest ++ fractionText parts.fraction ++ exponentText parts.exponent?, ?_, ?_⟩
  · rw [text, same, List.cons_append, List.cons_append]
  · apply wellFormed.whole
    rw [same]
    exact List.mem_cons_self

/-- The text of a decimal consists of digits, a point, a marker and a sign. -/
theorem mem_text {parts : Parts} (wellFormed : parts.WellFormed) :
    ∀ char ∈ parts.text, char.isDigit ∨ char ∈ ['.', 'e', '-'] := by
  intro char member
  rw [text, List.mem_append, List.mem_append] at member
  rcases member with (inWhole | inFraction) | inExponent
  · exact Or.inl (wellFormed.whole char inWhole)
  · cases same : parts.fraction with
    | nil =>
      rw [same] at inFraction
      cases inFraction
    | cons digit digits =>
      rw [same, fractionText_of_ne_nil (List.cons_ne_nil _ _), ← same] at inFraction
      rcases List.mem_cons.mp inFraction with rfl | inDigits
      · exact Or.inr List.mem_cons_self
      · exact Or.inl (wellFormed.fraction char inDigits)
  · cases same : parts.exponent? with
    | none =>
      rw [same] at inExponent
      cases inExponent
    | some exponent =>
      rw [same, exponentText, List.cons_append] at inExponent
      rcases List.mem_cons.mp inExponent with rfl | inPower
      · exact Or.inr (List.mem_cons_of_mem _ List.mem_cons_self)
      · rcases List.mem_append.mp inPower with inSign | inDigits
        · split at inSign
          · rw [List.mem_singleton.mp inSign]
            exact Or.inr (List.mem_cons_of_mem _ (List.mem_cons_of_mem _ List.mem_cons_self))
          · cases inSign
        · exact Or.inl (isDigit_of_mem_toDigits inDigits)

end Parts

/-! ## Parts of a layout -/

/-- Zeros in front of digits do not change their value. -/
theorem digitsValue_zeros (zeros : Nat) (digits : List Char) :
    digitsValue 0 (List.replicate zeros '0' ++ digits) = digitsValue 0 digits := by
  change Nat.ofDigitChars 10 (List.replicate zeros '0' ++ digits) 0 = Nat.ofDigitChars 10 digits 0
  rw [Nat.ofDigitChars_append, Nat.ofDigitChars_replicate_zero, Nat.mul_zero]

/-- Zeros behind digits scale their value. -/
theorem digitsValue_append_zeros (digits : List Char) (zeros : Nat) :
    digitsValue 0 (digits ++ List.replicate zeros '0') = 10 ^ zeros * digitsValue 0 digits := by
  change Nat.ofDigitChars 10 (digits ++ List.replicate zeros '0') 0 =
    10 ^ zeros * Nat.ofDigitChars 10 digits 0
  rw [Nat.ofDigitChars_append, Nat.ofDigitChars_replicate_zero]

theorem isDigit_of_mem_zeros {zeros : Nat} {digit : Char}
    (member : digit ∈ List.replicate zeros '0') : digit.isDigit := by
  rw [List.eq_of_mem_replicate member]
  rfl

/-- Digits and an exponent that denote the number of a numeral. -/
structure Spells (digits : List Char) (exponent : Int) (numeral : Numeral) : Prop where
  notEmpty : digits ≠ []
  decimal : ∀ digit ∈ digits, digit.isDigit
  value : (digitsValue 0 digits * 10 ^ exponent : ℚ) = numeral.digits * 10 ^ numeral.exponent

namespace Numeral

/-- The zeros at the end of digits can be told off by their number. -/
theorem eq_take_append_zeros (digits : List Char) :
    digits = digits.take (digits.length - (digits.reverse.takeWhile (· == '0')).length) ++
      List.replicate (digits.reverse.takeWhile (· == '0')).length '0' := by
  have split : digits.reverse.takeWhile (· == '0') ++ digits.reverse.dropWhile (· == '0') =
      digits.reverse :=
    List.takeWhile_append_dropWhile
  have zeros : digits.reverse.takeWhile (· == '0') =
      List.replicate (digits.reverse.takeWhile (· == '0')).length '0' := by
    apply List.eq_replicate_of_mem
    intro digit member
    have zero : (digit == '0') = true := List.mem_takeWhile_imp (p := (· == '0')) member
    exact beq_iff_eq.mp zero
  generalize digits.reverse.takeWhile (· == '0') = trailing at split zeros ⊢
  generalize digits.reverse.dropWhile (· == '0') = leading at split
  have whole : digits = leading.reverse ++ List.replicate trailing.length '0' := by
    rw [← List.reverse_reverse digits, ← split, List.reverse_append, zeros, List.reverse_replicate,
      List.length_replicate]
  have count : digits.length - trailing.length = leading.reverse.length := by
    rw [whole, List.length_append, List.length_replicate, Nat.add_sub_cancel]
  rw [count]
  conv =>
    rhs
    rw [whole, List.take_left]
  exact whole

/-- The significant digits denote the same number. -/
theorem significantDigits_spells (numeral : Numeral) :
    Spells numeral.significantDigits.1 numeral.significantDigits.2 numeral := by
  have split := eq_take_append_zeros (Nat.toDigits 10 numeral.digits)
  have decimal : ∀ digit ∈ Nat.toDigits 10 numeral.digits, digit.isDigit :=
    fun _ => isDigit_of_mem_toDigits
  have value := digitsValue_toDigits numeral.digits
  have some : 0 < (Nat.toDigits 10 numeral.digits).length := Nat.length_toDigits_pos
  have fewer : ((Nat.toDigits 10 numeral.digits).reverse.takeWhile (· == '0')).length ≤
      (Nat.toDigits 10 numeral.digits).length := by
    have shorter := (List.takeWhile_sublist (l := (Nat.toDigits 10 numeral.digits).reverse)
      (· == '0')).length_le
    rw [List.length_reverse] at shorter
    exact shorter
  rw [significantDigits]
  generalize Nat.toDigits 10 numeral.digits = digits at *
  generalize (digits.reverse.takeWhile (· == '0')).length = zeros at *
  rw [split, digitsValue_append_zeros] at value
  split_ifs with all
  · constructor
    · exact List.cons_ne_nil _ _
    · decide
    · rw [all, Nat.sub_self, List.take_zero] at value
      rw [← value]
      change ((0 : Nat) * 10 ^ (0 : Int) : ℚ) =
        (10 ^ digits.length * 0 : Nat) * 10 ^ numeral.exponent
      simp
  · constructor
    · intro none
      have length := congrArg List.length none
      rw [List.length_take, List.length_nil] at length
      omega
    · intro digit member
      exact decimal digit (List.mem_of_mem_take member)
    · rw [← value]
      dsimp only
      push_cast
      rw [zpow_add₀ (by norm_num), zpow_natCast]
      ring

/-- A layout is the text of parts that denote the same number. -/
structure LaidOut (numeral : Numeral) (text : List Char) (parts : Parts) : Prop where
  wellFormed : parts.WellFormed
  text : text = parts.text
  value : (digitsValue 0 (parts.whole ++ parts.fraction) *
    10 ^ (parts.exponent?.getD 0 - parts.fraction.length) : ℚ) =
      numeral.digits * 10 ^ numeral.exponent

/-- Zeros behind the digits of a whole number make up for the exponent. -/
theorem laidOut_of_zeros {numeral : Numeral} {digits : List Char} {zeros : Nat}
    (spells : Spells digits zeros numeral) :
    numeral.LaidOut (digits ++ List.replicate zeros '0')
      ⟨digits ++ List.replicate zeros '0', [], none⟩ := by
  refine ⟨⟨?_, ?_, List.forall_mem_nil _⟩, ?_, ?_⟩
  · exact List.append_ne_nil_of_left_ne_nil spells.notEmpty _
  · intro digit member
    rcases List.mem_append.mp member with inDigits | inZeros
    · exact spells.decimal digit inDigits
    · exact isDigit_of_mem_zeros inZeros
  · simp only [Parts.text, Parts.fractionText, Parts.exponentText, List.append_nil]
  · rw [← spells.value]
    dsimp only
    rw [List.append_nil, digitsValue_append_zeros]
    push_cast
    simp
    ring

/-- A point in front of as many digits as the exponent says makes up for it. -/
theorem laidOut_of_point {numeral : Numeral} {digits whole fraction : List Char} {places : Nat}
    (spells : Spells digits (.negSucc places) numeral) (notEmpty : whole ≠ [])
    (decimal : ∀ digit ∈ whole ++ fraction, digit.isDigit) (length : fraction.length = places + 1)
    (same : digitsValue 0 (whole ++ fraction) = digitsValue 0 digits) :
    numeral.LaidOut (whole ++ '.' :: fraction) ⟨whole, fraction, none⟩ := by
  have behind : fraction ≠ [] := by
    rintro rfl
    cases length
  refine ⟨⟨notEmpty, ?_, ?_⟩, ?_, ?_⟩
  · intro digit member
    exact decimal digit (List.mem_append_left _ member)
  · intro digit member
    exact decimal digit (List.mem_append_right _ member)
  · rw [Parts.text, Parts.fractionText_of_ne_nil behind, Parts.exponentText, List.append_nil]
  · have exponentSame : (Option.getD none 0 - (places + 1 : Nat) : Int) = Int.negSucc places := by
      rw [Option.getD_none, Int.zero_sub]
      rfl
    rw [← spells.value, same, length, exponentSame]

/-- The positional layout of a decimal has the same number. -/
theorem laidOut_positional (numeral : Numeral) :
    ∃ parts, numeral.LaidOut numeral.positional parts := by
  have spells := significantDigits_spells numeral
  rw [positional]
  generalize numeral.significantDigits = significant at *
  obtain ⟨digits, exponent⟩ := significant
  cases exponent with
  | ofNat zeros => exact ⟨_, laidOut_of_zeros spells⟩
  | negSucc places =>
    dsimp only
    split_ifs with short
    · have decimal : ∀ digit ∈ ['0'] ++ (List.replicate (places + 1 - digits.length) '0' ++ digits),
          digit.isDigit := by
        intro digit member
        rcases List.mem_append.mp member with inZero | member
        · rw [List.mem_singleton.mp inZero]
          rfl
        rcases List.mem_append.mp member with inZeros | inDigits
        · exact isDigit_of_mem_zeros inZeros
        · exact spells.decimal digit inDigits
      have length : (List.replicate (places + 1 - digits.length) '0' ++ digits).length =
          places + 1 := by
        rw [List.length_append, List.length_replicate]
        omega
      exact ⟨_, laidOut_of_point spells (List.cons_ne_nil _ _) decimal length
        ((digitsValue_zeros 1 _).trans (digitsValue_zeros _ digits))⟩
    · have notEmpty : digits.take (digits.length - (places + 1)) ≠ [] := by
        intro none
        have length := congrArg List.length none
        rw [List.length_take, List.length_nil] at length
        omega
      have length : (digits.drop (digits.length - (places + 1))).length = places + 1 := by
        rw [List.length_drop]
        omega
      have whole := List.take_append_drop (digits.length - (places + 1)) digits
      exact ⟨_, laidOut_of_point spells notEmpty (whole.symm ▸ spells.decimal) length
        (congrArg (digitsValue 0) whole)⟩

/-- The scientific layout of a decimal has the same number. -/
theorem laidOut_scientific (numeral : Numeral) :
    ∃ parts, numeral.LaidOut numeral.scientific parts := by
  have spells := significantDigits_spells numeral
  rw [scientific]
  generalize numeral.significantDigits = significant at *
  obtain ⟨digits, exponent⟩ := significant
  obtain ⟨notEmpty, decimal, value⟩ := spells
  obtain ⟨first, others, rfl⟩ := List.exists_cons_of_ne_nil notEmpty
  have firstDigit : ∀ digit ∈ [first], digit.isDigit := by
    intro digit member
    rw [List.mem_singleton.mp member]
    exact decimal first List.mem_cons_self
  refine ⟨⟨[first], others, some (exponent + ((first :: others).length - 1 : Nat))⟩,
    ⟨List.cons_ne_nil _ _, firstDigit, ?_⟩, ?_, ?_⟩
  · intro digit member
    exact decimal digit (List.mem_cons_of_mem _ member)
  · cases others with
    | nil =>
      simp only [Parts.text, Parts.fractionText, Parts.exponentText, List.cons_append,
        List.nil_append]
    | cons second others =>
      simp only [Parts.text, Parts.fractionText, Parts.exponentText, List.append_assoc,
        List.cons_append, List.nil_append]
  · have exponentSame : ((some (exponent + ((first :: others).length - 1 : Nat))).getD 0 -
        others.length : Int) = exponent := by
      rw [Option.getD_some, List.length_cons, Nat.add_sub_cancel, Int.add_sub_cancel]
    rw [← value, exponentSame]
    rfl

end Numeral

end GraphMarkup.Decimal
