import GraphMarkup.Text.Blank
import Mathlib.Data.List.TakeWhile

/-!
# Trimming

Trimming takes a text apart into blank characters at both ends and a middle
that neither begins nor ends with one. It leaves nothing exactly of a text
that is blank throughout.
-/

namespace GraphMarkup.Text

/-- What is said of the characters in a list is decided by going through the list, never through
all characters that there are. -/
instance decidableForallMemChars (property : Char → Prop) [DecidablePred property]
    (chars : List Char) : Decidable (∀ char ∈ chars, property char) :=
  List.decidableBAll property chars

theorem dropRightWhile_eq_nil_iff {α : Type} {drop : α → Bool} {items : List α} :
    dropRightWhile drop items = [] ↔ ∀ item ∈ items, drop item := by
  rw [dropRightWhile, List.reverse_eq_nil_iff, List.dropWhile_eq_nil_iff]
  constructor
  · intro all item member
    exact all item (List.mem_reverse.mpr member)
  · intro all item member
    exact all item (List.mem_reverse.mp member)

theorem trimChars_eq_nil_iff {chars : List Char} :
    trimChars chars = [] ↔ ∀ char ∈ chars, isBlank char := by
  rw [trimChars, dropRightWhile_eq_nil_iff]
  constructor
  · intro all char member
    rw [← List.takeWhile_append_dropWhile (p := isBlank) (l := chars), List.mem_append] at member
    rcases member with front | back
    · exact List.mem_takeWhile_imp front
    · exact all char back
  · intro all char member
    exact all char ((List.dropWhile_sublist isBlank).subset member)

/-- Trimming leaves nothing exactly of a text that is blank throughout. -/
theorem trim_isEmpty_iff {text : String} :
    (trim text).isEmpty ↔ ∀ char ∈ text.toList, isBlank char := by
  rw [String.isEmpty_iff, trim, ← String.toList_inj, String.toList_ofList, ← trimChars_eq_nil_iff]
  rfl

/-- Nothing is trimmed where the first and the last character are not blank. -/
theorem trimChars_eq_self {chars : List Char}
    (first : ∀ char ∈ chars.head?, isBlank char = false)
    (last : ∀ char ∈ chars.getLast?, isBlank char = false) : trimChars chars = chars := by
  have front : chars.dropWhile isBlank = chars := by
    cases chars with
    | nil => rfl
    | cons char chars => rw [List.dropWhile_cons_of_neg (by simp [first char rfl])]
  rw [trimChars, front, dropRightWhile]
  cases reversed : chars.reverse with
  | nil => rw [List.dropWhile_nil, List.reverse_nil, List.reverse_eq_nil_iff.mp reversed]
  | cons char rest =>
    have solid : isBlank char = false := by
      apply last
      rw [List.getLast?_eq_head?_reverse, reversed]
      rfl
    rw [List.dropWhile_cons_of_neg (by simp [solid]), ← reversed, List.reverse_reverse]

/-- Trimming leaves a text without blank characters as it is. -/
theorem trim_eq_self {text : String} (solid : ∀ char ∈ text.toList, isBlank char = false) :
    trim text = text := by
  rw [trim, trimChars_eq_self, String.ofList_toList]
  · intro char first
    exact solid char (List.mem_of_mem_head? first)
  · intro char last
    exact solid char (List.mem_of_getLast? last)

end GraphMarkup.Text
