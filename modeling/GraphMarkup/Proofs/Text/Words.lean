import GraphMarkup.Proofs.Text.Blank

/-!
# Words

A blank character ends a word and belongs to none. So the words of a text are those of its
parts, however it is cut at blank characters, and trimming leaves them alone. A text with a
single word is that word with blank characters around it.
-/

namespace GraphMarkup.Text

theorem words_nil : words [] = [] :=
  rfl

/-- The words on both sides of a blank character are those of the parts. -/
theorem words_append_cons {char : Char} (blank : isBlank char) (front back : List Char) :
    words (front ++ char :: back) = words front ++ words back := by
  rw [words, List.splitOnP_append_cons front back blank, List.filter_append, words, words]

theorem words_cons_of_isBlank {char : Char} (blank : isBlank char) (chars : List Char) :
    words (char :: chars) = words chars :=
  words_append_cons blank [] chars

/-- Blank characters in front of a text do not change its words. -/
theorem words_append_left {front : List Char} (blank : ∀ char ∈ front, isBlank char)
    (chars : List Char) : words (front ++ chars) = words chars := by
  induction front with
  | nil => rfl
  | cons char front ih =>
    obtain ⟨first, others⟩ := List.forall_mem_cons.mp blank
    rw [List.cons_append, words_cons_of_isBlank first, ih others]

/-- A text has no words exactly if it is blank throughout. -/
theorem words_eq_nil_iff {chars : List Char} : words chars = [] ↔ ∀ char ∈ chars, isBlank char := by
  constructor
  · intro none
    induction chars with
    | nil => exact List.forall_mem_nil _
    | cons char chars ih =>
      by_cases blank : isBlank char
      · rw [words_cons_of_isBlank blank] at none
        exact List.forall_mem_cons.mpr ⟨blank, ih none⟩
      · obtain ⟨part, parts, cut⟩ :=
          List.exists_cons_of_ne_nil (List.splitOnP_ne_nil isBlank chars)
        rw [words, List.splitOnP_cons_eq_if_modifyHead, if_neg blank, cut,
          List.modifyHead_cons] at none
        cases none
  · intro blank
    have same := words_append_left blank []
    rwa [List.append_nil] at same

/-- Blank characters behind a text do not change its words. -/
theorem words_append_right {back : List Char} (blank : ∀ char ∈ back, isBlank char)
    (chars : List Char) : words (chars ++ back) = words chars := by
  cases back with
  | nil => rw [List.append_nil]
  | cons char back =>
    obtain ⟨first, others⟩ := List.forall_mem_cons.mp blank
    rw [words_append_cons first, words_eq_nil_iff.mpr others, List.append_nil]

/-- A text without blank characters is a word. -/
theorem words_of_solid {chars : List Char} (solid : ∀ char ∈ chars, isBlank char = false)
    (notEmpty : chars ≠ []) : words chars = [chars] := by
  rw [words, List.splitOnP_eq_singleton solid]
  exact List.filter_cons_of_pos (by simpa using notEmpty)

/-! ## Trimming -/

theorem eq_false_of_dropWhile_eq_cons {α : Type} {drop : α → Bool} {items rest : List α} {item : α}
    (left : items.dropWhile drop = item :: rest) : drop item = false := by
  have first := List.head?_dropWhile_not drop items
  rw [left] at first
  exact first

theorem dropRightWhile_append {α : Type} (drop : α → Bool) (items : List α) :
    dropRightWhile drop items ++ (items.reverse.takeWhile drop).reverse = items := by
  rw [dropRightWhile, ← List.reverse_append, List.takeWhile_append_dropWhile, List.reverse_reverse]

/-- What is trimmed off a text is blank. -/
theorem exists_eq_append_trimChars (chars : List Char) :
    ∃ front back, chars = front ++ (trimChars chars ++ back) ∧ (∀ char ∈ front, isBlank char) ∧
      ∀ char ∈ back, isBlank char := by
  refine ⟨chars.takeWhile isBlank,
    ((chars.dropWhile isBlank).reverse.takeWhile isBlank).reverse, ?_, ?_, ?_⟩
  · rw [trimChars, dropRightWhile_append, List.takeWhile_append_dropWhile]
  · exact fun char member => List.mem_takeWhile_imp member
  · exact fun char member => List.mem_takeWhile_imp (List.mem_reverse.mp member)

theorem words_trimChars (chars : List Char) : words (trimChars chars) = words chars := by
  obtain ⟨front, back, same, blankFront, blankBack⟩ := exists_eq_append_trimChars chars
  calc
    words (trimChars chars) = words (front ++ (trimChars chars ++ back)) := by
      rw [words_append_left blankFront, words_append_right blankBack]
    _ = words chars := congrArg words same.symm

/-- A trimmed text does not begin with a blank character. -/
theorem isBlank_of_trimChars_eq_cons {chars rest : List Char} {char : Char}
    (begins : trimChars chars = char :: rest) : isBlank char = false := by
  have left := dropRightWhile_append isBlank (chars.dropWhile isBlank)
  rw [trimChars] at begins
  rw [begins, List.cons_append] at left
  exact eq_false_of_dropWhile_eq_cons left.symm

/-- A trimmed text does not end with a blank character. -/
theorem isBlank_of_trimChars_eq_concat {chars rest : List Char} {char : Char}
    (ends : trimChars chars = rest ++ [char]) : isBlank char = false := by
  rw [trimChars, dropRightWhile, List.reverse_eq_iff, List.reverse_concat] at ends
  exact eq_false_of_dropWhile_eq_cons ends

/-- A blank character inside a trimmed text has words on both sides. -/
theorem words_ne_nil_of_trimChars_eq {chars front back : List Char} {char : Char}
    (blank : isBlank char) (split : trimChars chars = front ++ char :: back) :
    words front ≠ [] ∧ words back ≠ [] := by
  constructor
  · intro none
    have first : ∃ first rest, trimChars chars = first :: rest ∧ isBlank first := by
      cases front with
      | nil => exact ⟨char, back, split, blank⟩
      | cons first front =>
        exact ⟨first, front ++ char :: back, split,
          words_eq_nil_iff.mp none first List.mem_cons_self⟩
    obtain ⟨first, rest, begins, blankFirst⟩ := first
    exact Bool.false_ne_true ((isBlank_of_trimChars_eq_cons begins).symm.trans blankFirst)
  · intro none
    have last : ∃ rest last, trimChars chars = rest ++ [last] ∧ isBlank last := by
      rcases List.eq_nil_or_concat back with rfl | ⟨rest, last, rfl⟩
      · exact ⟨front, char, split, blank⟩
      · rw [List.concat_eq_append] at split none
        refine ⟨front ++ char :: rest, last, ?_,
          words_eq_nil_iff.mp none last List.mem_concat_self⟩
        rw [split, List.append_assoc, List.cons_append]
    obtain ⟨rest, last, ends, blankLast⟩ := last
    exact Bool.false_ne_true ((isBlank_of_trimChars_eq_concat ends).symm.trans blankLast)

/-- A text is a word with blank characters around it exactly if it has no other words. -/
theorem trimChars_eq_iff_words {chars word : List Char}
    (solid : ∀ char ∈ word, isBlank char = false) (notEmpty : word ≠ []) :
    trimChars chars = word ↔ words chars = [word] := by
  constructor
  · rintro rfl
    rw [← words_trimChars, words_of_solid solid notEmpty]
  · intro single
    rw [← words_trimChars] at single
    have allSolid : ∀ char ∈ trimChars chars, isBlank char = false := by
      intro char member
      by_contra blank
      rw [Bool.not_eq_false] at blank
      obtain ⟨front, back, split⟩ := List.append_of_mem member
      obtain ⟨before, behind⟩ := words_ne_nil_of_trimChars_eq blank split
      rw [split, words_append_cons blank, List.append_eq_singleton_iff] at single
      rcases single with ⟨none, -⟩ | ⟨-, none⟩
      · exact before none
      · exact behind none
    have something : trimChars chars ≠ [] := by
      intro nothing
      rw [nothing, words_nil] at single
      cases single
    rw [words_of_solid allSolid something] at single
    exact List.singleton_inj.mp single

/-! ## Cutting at a blank character -/

/-- Cutting at one kind of blank character leaves every word in one part. -/
theorem words_eq_flatMap_splitOn (separator : Char) (blank : isBlank separator)
    (chars : List Char) : words chars = (chars.splitOn separator).flatMap words := by
  have joined (parts : List (List Char)) :
      words ([separator].intercalate parts) = parts.flatMap words := by
    induction parts with
    | nil => rfl
    | cons part parts ih =>
      cases parts with
      | nil => rw [List.intercalate_singleton, List.flatMap_singleton]
      | cons next parts =>
        rw [List.intercalate_cons_cons, List.flatMap_cons, ← ih, List.append_assoc,
          List.singleton_append, words_append_cons blank]
  rw [← joined, List.intercalate_splitOn]

end GraphMarkup.Text
