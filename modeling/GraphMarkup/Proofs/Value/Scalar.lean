import GraphMarkup.Proofs.Decimal.Layout
import GraphMarkup.Proofs.Decimal.Shortest
import GraphMarkup.Proofs.Text.Integer
import GraphMarkup.Value.Scalar

/-!
# Scalars are read back

Every scalar is read back from its text as the very same value. Apart from strings
the texts hold no blank characters, so they can be told apart in a list.
-/

namespace GraphMarkup.Value

open GraphMarkup.Decimal
open GraphMarkup.Text

/-! ## Floating-point numbers -/

/-- The digits of a finite number, without its sign. -/
def magnitude (format : Format) (code : Nat) : List Char :=
  if code = 0 then ['0']
  else if format.nearestCodeOfDecimal 1 (-5) ≤ code ∧
      code < format.nearestCodeOfDecimal 1 16 then
    (format.shortest code).positional
  else (format.shortest code).scientific

theorem writeDecimal_finite {format : Format} (negative : Bool) (code : Fin format.infinityCode) :
    writeDecimal (.finite negative code) =
      String.ofList ((if negative then ['-'] else []) ++ magnitude format code) := by
  rw [writeDecimal]
  cases negative with
  | false => rfl
  | true => rfl

/-- The digits of a finite number are those of a decimal that is rounded to its code. -/
theorem magnitude_eq {format : Format} {code : Nat} (finite : code < format.infinityCode) :
    ∃ parts : Parts, parts.WellFormed ∧ magnitude format code = parts.text ∧
      format.nearestCodeOfDecimal (digitsValue 0 (parts.whole ++ parts.fraction))
        (parts.exponent?.getD 0 - parts.fraction.length) = code := by
  rw [magnitude]
  by_cases zero : code = 0
  · refine ⟨⟨['0'], [], none⟩, ⟨List.cons_ne_nil _ _, ?_, List.forall_mem_nil _⟩, ?_, ?_⟩
    · decide
    · rw [if_pos zero]
      rfl
    · rw [zero]
      exact format.nearestCodeOfDecimal_zero 0
  · rw [if_neg zero]
    have laid : ∃ parts, (format.shortest code).LaidOut
        (if format.nearestCodeOfDecimal 1 (-5) ≤ code ∧
            code < format.nearestCodeOfDecimal 1 16 then
          (format.shortest code).positional
        else (format.shortest code).scientific) parts := by
      split
      · exact Numeral.laidOut_positional _
      · exact Numeral.laidOut_scientific _
    obtain ⟨parts, wellFormed, text, value⟩ := laid
    exact ⟨parts, wellFormed, text,
      Format.nearestCodeOfDecimal_shortest (Nat.pos_of_ne_zero zero) finite value⟩

/-- The characters other than digits that numbers and truth values are written with. -/
def marks : List Char :=
  ['.', 'e', '-', 'N', 'a', 'I', 'F', 't', 'r', 'u', 'f', 'l', 's']

theorem isBlank_of_marked {char : Char} (marked : char.isDigit ∨ char ∈ marks) :
    isBlank char = false := by
  rcases marked with digit | mark
  · exact isBlank_of_isDigit digit
  · have solid : ∀ mark ∈ marks, isBlank mark = false := by
      decide
    exact solid char mark

/-- The text of a floating-point number consists of digits and marks. -/
theorem mem_writeDecimal {format : Format} (value : Binary format) :
    ∀ char ∈ (writeDecimal value).toList, char.isDigit ∨ char ∈ marks := by
  have words : ∀ word ∈ ["NaN", "INF", "-INF"], ∀ char ∈ word.toList, char ∈ marks := by
    decide
  intro char member
  cases value with
  | nan => exact Or.inr (words "NaN" List.mem_cons_self char member)
  | infinity negative =>
    apply Or.inr
    cases negative with
    | false => exact words "INF" (List.mem_cons_of_mem _ List.mem_cons_self) char member
    | true =>
      exact words "-INF" (List.mem_cons_of_mem _ (List.mem_cons_of_mem _ List.mem_cons_self)) char
        member
  | finite negative code =>
    obtain ⟨parts, wellFormed, text, -⟩ := magnitude_eq code.isLt
    rw [writeDecimal_finite, String.toList_ofList, text] at member
    rcases List.mem_append.mp member with sign | digits
    · split at sign
      · rw [List.mem_singleton.mp sign]
        exact Or.inr (by decide)
      · cases sign
    · rcases Parts.mem_text wellFormed char digits with digit | mark
      · exact Or.inl digit
      · exact Or.inr (List.mem_append_left ['N', 'a', 'I', 'F', 't', 'r', 'u', 'f', 'l', 's'] mark)

theorem trim_writeDecimal {format : Format} (value : Binary format) :
    trim (writeDecimal value) = writeDecimal value :=
  trim_eq_self fun char member => isBlank_of_marked (mem_writeDecimal value char member)

/-- The sign of a number is told off from its digits. -/
theorem readSign_sign (negative : Bool) {first : Char} (digit : first.isDigit)
    (rest : List Char) :
    readSign ((if negative then ['-'] else []) ++ first :: rest) = (negative, first :: rest) := by
  cases negative with
  | false => exact readSign_of_isDigit digit rest
  | true => rfl

/-- A number is not spelled like an infinity. -/
theorem sign_ne_infinity (negative : Bool) {first : Char} (digit : first.isDigit)
    (rest : List Char) :
    String.ofList ((if negative then ['-'] else []) ++ first :: rest) ≠ "INF" ∧
      String.ofList ((if negative then ['-'] else []) ++ first :: rest) ≠ "-INF" := by
  constructor
  · intro same
    have chars := congrArg String.toList same
    rw [String.toList_ofList] at chars
    cases negative with
    | false =>
      cases chars
      cases digit
    | true => cases chars
  · intro same
    have chars := congrArg String.toList same
    rw [String.toList_ofList] at chars
    cases negative with
    | false =>
      cases chars
      cases digit
    | true =>
      cases chars
      cases digit

/-- A finite number is read back from its text. -/
theorem readDecimal_finite (kind : ScalarKind) {format : Format} (negative : Bool)
    (code : Fin format.infinityCode) :
    readDecimal kind format (writeDecimal (.finite negative code)) =
      .ok (.finite negative code) := by
  obtain ⟨parts, wellFormed, text, value⟩ := magnitude_eq code.isLt
  obtain ⟨first, rest, begins, digit⟩ := Parts.text_eq_cons wellFormed
  have read := Parts.readUnsigned?_text wellFormed
  obtain ⟨notPositive, notNegative⟩ := sign_ne_infinity negative digit rest
  have datum : Binary.ofCode negative (code : Nat) = .finite negative code := by
    rw [Binary.ofCode, dif_pos code.isLt]
  rw [begins] at text read
  rw [readDecimal, trim_writeDecimal, writeDecimal_finite, text, if_neg notPositive,
    if_neg notNegative, String.toList_ofList, Decimal.read, readSign_sign negative digit]
  · dsimp only
    rw [read]
    dsimp only
    rw [value, datum]
    rfl
  · intro none
    cases List.append_eq_nil_iff.mp none |>.2

/-- A floating-point number is read back from its text. -/
theorem readDecimal_writeDecimal (kind : ScalarKind) {format : Format} (value : Binary format) :
    readDecimal kind format (writeDecimal value) = .ok value := by
  cases value with
  | nan =>
    rw [readDecimal, trim_writeDecimal]
    change (if "NaN" = "INF" then _ else if "NaN" = "-INF" then _
      else (Decimal.read format "NaN".toList).mapError _) = _
    rw [if_neg (by decide), if_neg (by decide)]
    rfl
  | infinity negative =>
    rw [readDecimal, trim_writeDecimal]
    cases negative with
    | false => rfl
    | true => rfl
  | finite negative code => exact readDecimal_finite kind negative code

/-! ## All scalars -/

/-- An integer in range is read back from its text. -/
theorem readBounded_integerText (kind : ScalarKind) {number : Int} {bound : Nat}
    (above : -(bound + 1 : Int) ≤ number) (below : number ≤ bound) :
    readBounded kind bound (integerText number) = .ok number := by
  rw [readBounded, trim_integerText]
  rw [readInteger_integerText above below]
  rfl

/-- The text of a scalar that is not a string consists of digits and marks. -/
theorem mem_write {kind : ScalarKind} (notString : kind ≠ .string) (value : kind.Carrier) :
    ∀ char ∈ (kind.write value).toList, char.isDigit ∨ char ∈ marks := by
  have integers (number : Int) :
      ∀ char ∈ (integerText number).toList, char.isDigit ∨ char ∈ marks := by
    intro char member
    rcases mem_integerText char member with rfl | digit
    · exact Or.inr (by decide)
    · exact Or.inl digit
  cases kind with
  | boolean =>
    cases value with
    | false => decide
    | true => decide
  | int => exact integers _
  | long => exact integers _
  | float => exact mem_writeDecimal value
  | double => exact mem_writeDecimal value
  | string => exact absurd rfl notString

/-- A scalar is read back from its text. -/
theorem read_write (kind : ScalarKind) (value : kind.Carrier) :
    kind.read (kind.write value) = .ok value := by
  cases kind with
  | boolean =>
    cases value with
    | false => decide
    | true => decide
  | int =>
    have above := Int32.le_toInt value
    have below := Int32.toInt_lt value
    change Int32.ofInt <$> readBounded .int (Int32.size / 2 - 1) (integerText value.toInt) = _
    rw [readBounded_integerText]
    · exact congrArg Except.ok (Int32.ofInt_toInt value)
    · exact above
    · exact Int.le_of_lt_add_one below
  | long =>
    have above := Int64.le_toInt value
    have below := Int64.toInt_lt value
    change Int64.ofInt <$> readBounded .long (Int64.size / 2 - 1) (integerText value.toInt) = _
    rw [readBounded_integerText]
    · exact congrArg Except.ok (Int64.ofInt_toInt value)
    · exact above
    · exact Int.le_of_lt_add_one below
  | float => exact readDecimal_writeDecimal .float value
  | double => exact readDecimal_writeDecimal .double value
  | string => rfl

end GraphMarkup.Value
