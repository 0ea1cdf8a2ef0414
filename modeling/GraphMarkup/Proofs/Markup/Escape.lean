import GraphMarkup.Markup.Event
import GraphMarkup.Proofs.Result
import GraphMarkup.Proofs.Text.Blank
import GraphMarkup.Proofs.Text.Utf8

/-!
# Escaping and unescaping

Escaped text holds none of the characters that mean something in markup but the
ampersands of its references, and unescaping gives back what was escaped.
-/

namespace GraphMarkup.Markup

open GraphMarkup.Text

/-! ## Escaped characters -/

/-- A character with a reference is written as the reference, and the reference is read
as the character. -/
theorem reference_of_mem {char : Char} {name : String}
    (listed : (char, name) ∈ namedReferences) :
    escapeChar char = '&' :: name.toList ++ [';'] ∧
      ∀ start, referencedChar start name.toList = .ok char := by
  simp only [namedReferences, List.mem_cons, List.not_mem_nil, or_false, Prod.mk.injEq] at listed
  rcases listed with ⟨rfl, rfl⟩ | ⟨rfl, rfl⟩ | ⟨rfl, rfl⟩ | ⟨rfl, rfl⟩ | ⟨rfl, rfl⟩ <;>
    exact ⟨rfl, fun _ => rfl⟩

/-- Every character is written as its reference or stands for itself. -/
theorem escapeChar_cases (char : Char) :
    (∃ name, (char, name) ∈ namedReferences ∧ escapeChar char = '&' :: name.toList ++ [';']) ∨
      char ∉ namedReferences.map Prod.fst ∧ escapeChar char = [char] := by
  cases found : namedReferences.lookup char with
  | some name =>
    obtain ⟨front, back, same, _⟩ := List.lookup_eq_some_iff.mp found
    have listed : (char, name) ∈ namedReferences := by
      rw [same]
      exact List.mem_append_right _ List.mem_cons_self
    exact .inl ⟨name, listed, (reference_of_mem listed).1⟩
  | none =>
    refine .inr ⟨?_, by rw [escapeChar, found]⟩
    rw [List.lookup_eq_none_iff] at found
    intro member
    obtain ⟨entry, listed, rfl⟩ := List.mem_map.mp member
    simpa using found entry listed

/-- The characters that begin or end tags and values. -/
def marks : List Char :=
  ['<', '>', '\'', '"']

/-- References hold no marks. -/
theorem not_mem_marks_of_mem_reference {char : Char} {name : String}
    (listed : (char, name) ∈ namedReferences) {other : Char}
    (member : other ∈ '&' :: name.toList ++ [';']) : other ∉ marks := by
  have all : ∀ entry ∈ namedReferences, ∀ other ∈ '&' :: entry.2.toList ++ [';'],
      other ∉ marks := by
    decide
  exact all _ listed other member

/-- Escaped text holds no marks. -/
theorem not_mem_marks_of_mem_escape {text : String} {char : Char}
    (member : char ∈ (escape text).toList) : char ∉ marks := by
  rw [escape, String.toList_ofList, List.mem_flatMap] at member
  obtain ⟨source, _, written⟩ := member
  rcases escapeChar_cases source with ⟨name, listed, same⟩ | ⟨unlisted, same⟩
  · rw [same] at written
    exact not_mem_marks_of_mem_reference listed written
  · rw [same, List.mem_singleton] at written
    subst written
    intro marked
    apply unlisted
    have listed : ∀ mark ∈ marks, mark ∈ namedReferences.map Prod.fst := by
      decide
    exact listed char marked

theorem escape_eq_empty_iff {text : String} : escape text = "" ↔ text = "" := by
  constructor
  · intro none
    rw [escape, ← String.toList_inj, String.toList_ofList, String.toList_empty,
      List.flatMap_eq_nil_iff] at none
    rw [← String.toList_inj, String.toList_empty, List.eq_nil_iff_forall_not_mem]
    intro char member
    have written := none char member
    rcases escapeChar_cases char with ⟨name, _, same⟩ | ⟨_, same⟩
    · rw [same] at written
      cases written
    · rw [same] at written
      cases written
  · rintro rfl
    rfl

/-! ## Unescaping -/

/-- What may stand between the ampersand and the semicolon of a reference. -/
def IsReference (reference : List Char) : Prop :=
  ∀ char ∈ reference, char ≠ ';' ∧ char ≠ '&'

theorem takeWhile_reference {reference : List Char} (plain : IsReference reference)
    (rest : List Char) :
    (reference ++ ';' :: rest).takeWhile (fun char => char != ';' && char != '&') =
      reference := by
  rw [List.takeWhile_append_of_pos]
  · simp
  · intro char member
    simpa using plain char member

theorem dropWhile_reference {reference : List Char} (plain : IsReference reference)
    (rest : List Char) :
    (reference ++ ';' :: rest).dropWhile (fun char => char != ';' && char != '&') =
      ';' :: rest := by
  rw [List.dropWhile_append_of_pos]
  · simp
  · intro char member
    simpa using plain char member

/-- An ampersand begins a reference, which reaches to the next semicolon. -/
theorem unescapeFrom_ampersand {reference : List Char} (plain : IsReference reference)
    (offset total : Nat) (rest : List Char) :
    unescapeFrom offset total ('&' :: (reference ++ ';' :: rest)) =
      (do
        let char ← referencedChar (offset + 1) reference
        let length := (String.ofList reference).utf8ByteSize
        let chars ← unescapeFrom (offset + length + 2) total rest
        pure (char :: chars)) := by
  have dropped := dropWhile_reference plain rest
  rw [unescapeFrom]
  split
  · rename_i found
    rw [dropped] at found
    cases found
    rw [takeWhile_reference plain rest]
  · rename_i other
    exact absurd dropped (other rest)

/-- Unescaping replaces a reference. -/
theorem unescapeFrom_reference {char : Char} {name : String}
    (listed : (char, name) ∈ namedReferences) (offset total : Nat) {rest chars : List Char}
    (read : ∀ offset, unescapeFrom offset total rest = .ok chars) :
    unescapeFrom offset total ('&' :: (name.toList ++ ';' :: rest)) = .ok (char :: chars) := by
  have plain : ∀ entry ∈ namedReferences, ∀ other ∈ entry.2.toList,
      other ≠ ';' ∧ other ≠ '&' := by
    decide
  rw [unescapeFrom_ampersand (plain _ listed), (reference_of_mem listed).2]
  simp [read]

/-- Unescaping leaves every character but an ampersand as it is. -/
theorem unescapeFrom_cons {char : Char} (other : char ≠ '&') (offset total : Nat)
    {rest chars : List Char} (read : ∀ offset, unescapeFrom offset total rest = .ok chars) :
    unescapeFrom offset total (char :: rest) = .ok (char :: chars) := by
  rw [unescapeFrom]
  · simp [read]
  · exact other

theorem unescapeFrom_flatMap_escapeChar (chars : List Char) (offset total : Nat) :
    unescapeFrom offset total (chars.flatMap escapeChar) = .ok chars := by
  induction chars generalizing offset with
  | nil => simp [unescapeFrom]
  | cons char chars ih =>
    rw [List.flatMap_cons]
    rcases escapeChar_cases char with ⟨name, listed, same⟩ | ⟨unlisted, same⟩
    · rw [same, List.append_assoc]
      exact unescapeFrom_reference listed offset total ih
    · have other : char ≠ '&' := by
        rintro rfl
        exact unlisted (by decide)
      rw [same]
      exact unescapeFrom_cons other offset total ih

/-- Unescaping gives back what was escaped. -/
@[simp]
theorem unescape_escape (text : String) : unescape (escape text) = .ok text := by
  rw [unescape, escape, String.toList_ofList, unescapeFrom_flatMap_escapeChar]
  simp

/-! ## Texts behind one another -/

/-- Where a reference stands does not matter to what it stands for. -/
theorem referencedChar_eq_ok {start : Nat} {reference : List Char} {char : Char}
    (read : referencedChar start reference = .ok char) (start' : Nat) :
    referencedChar start' reference = .ok char := by
  rw [referencedChar.eq_def] at read ⊢
  split at read
  · exact read
  · split at read
    · exact read
    · cases read

/-- What two texts stand for is unescaped from the one in front of the other, wherever they
stand. -/
theorem unescapeFrom_append {front back chars more : List Char} {offset total : Nat}
    (first : unescapeFrom offset total front = .ok chars)
    (second : ∀ offset total, unescapeFrom offset total back = .ok more) (offset' total' : Nat) :
    unescapeFrom offset' total' (front ++ back) = .ok (chars ++ more) := by
  fun_induction unescapeFrom offset total front generalizing chars offset' with
  | case1 =>
    cases first
    exact second offset' total'
  | case2 offset rest reference rest' found =>
    rename_i ih
    simp only [bind_eq_ok_iff, pure_eq_ok_iff] at first
    obtain ⟨char, read, others, unescaped, rfl⟩ := first
    have plain : IsReference reference := by
      intro char member
      simpa using List.mem_takeWhile_imp member
    have split : rest = reference ++ ';' :: rest' := by
      rw [← found, List.takeWhile_append_dropWhile]
    rw [split, List.cons_append, List.append_assoc, List.cons_append,
      unescapeFrom_ampersand plain, referencedChar_eq_ok read]
    simp [ih unescaped]
  | case3 => cases first
  | case4 offset char rest other ih =>
    simp only [bind_eq_ok_iff, pure_eq_ok_iff] at first
    obtain ⟨others, unescaped, rfl⟩ := first
    exact unescapeFrom_cons other offset' total' fun offset => ih unescaped offset

/-- Unescaping two texts behind one another is unescaping each of them. -/
theorem unescape_append {front back text more : String} (first : unescape front = .ok text)
    (second : unescape back = .ok more) : unescape (front ++ back) = .ok (text ++ more) := by
  simp only [unescape, bind_eq_ok_iff, pure_eq_ok_iff] at first second
  obtain ⟨chars, first, rfl⟩ := first
  obtain ⟨others, second, rfl⟩ := second
  have anywhere : ∀ offset total, unescapeFrom offset total back.toList = .ok others := by
    intro offset total
    have behind := unescapeFrom_append second (fun _ _ => unescapeFrom.eq_1 _ _) offset total
    rw [List.append_nil, List.append_nil] at behind
    exact behind
  rw [unescape, String.toList_append, unescapeFrom_append first anywhere]
  exact congrArg Except.ok String.ofList_append

/-! ## Bytes -/

/-- The bytes of a text stand for what is unescaped of it. -/
theorem rawText_encodeUtf8 {raw text : String} (read : unescape raw = .ok text) :
    rawText (encodeUtf8 raw) = .ok text := by
  rw [rawText, decodeUtf8_encodeUtf8]
  simp [read]

/-- The bytes of escaped text stand for the text. -/
@[simp]
theorem rawText_encodeUtf8_escape (text : String) :
    rawText (encodeUtf8 (escape text)) = .ok text :=
  rawText_encodeUtf8 (unescape_escape text)

end GraphMarkup.Markup
