/-!
# Cutting lists

Text is taken apart at the first place where something stands. The functions
here cut a list at a predicate or at a pattern. Cutting loses nothing, and what
is left is no longer than the list, which is what the scanners recurse on.
-/

namespace GraphMarkup.Text

variable {α : Type}

/-- Drop the elements at the end of a list that satisfy `drop`. -/
def dropRightWhile (drop : α → Bool) (items : List α) : List α :=
  (items.reverse.dropWhile drop).reverse

/-- The elements behind `start`, if a list begins with it. -/
def dropPrefix? [DecidableEq α] : (start items : List α) → Option (List α)
  | [], items => some items
  | _ :: _, [] => none
  | expected :: start, item :: items =>
      if item = expected then dropPrefix? start items else none

/-- The elements before and behind the first occurrence of `pattern`. -/
def cutAt? [DecidableEq α] (pattern : List α) : List α → Option (List α × List α)
  | [] => (dropPrefix? pattern []).map ([], ·)
  | item :: items =>
      match dropPrefix? pattern (item :: items) with
      | some rest => some ([], rest)
      | none => (cutAt? pattern items).map fun (front, rest) => (item :: front, rest)

theorem length_dropWhile_le (skip : α → Bool) (items : List α) :
    (items.dropWhile skip).length ≤ items.length :=
  (List.dropWhile_sublist skip).length_le

theorem length_lt_of_dropWhile_eq_cons {skip : α → Bool} {items rest : List α} {item : α}
    (found : items.dropWhile skip = item :: rest) : rest.length < items.length := by
  have shorter := length_dropWhile_le skip items
  rw [found, List.length_cons] at shorter
  omega

theorem dropPrefix?_eq_some_iff [DecidableEq α] {start items rest : List α} :
    dropPrefix? start items = some rest ↔ items = start ++ rest := by
  fun_induction dropPrefix? start items with
  | case1 => simp
  | case2 => simp
  | case3 _ _ _ ih => simp [ih]
  | case4 => simp_all

/-- Cutting at a pattern loses nothing: the front, the pattern and the rest make
up the list. -/
theorem eq_append_of_cutAt?_eq_some [DecidableEq α] {pattern items front rest : List α}
    (found : cutAt? pattern items = some (front, rest)) :
    items = front ++ (pattern ++ rest) := by
  induction items generalizing front with
  | nil =>
    obtain ⟨_, dropped, same⟩ := Option.map_eq_some_iff.1 found
    cases same
    simpa using dropPrefix?_eq_some_iff.1 dropped
  | cons item items ih =>
    unfold cutAt? at found
    split at found
    · cases found
      simpa using dropPrefix?_eq_some_iff.1 ‹dropPrefix? _ _ = some _›
    · obtain ⟨⟨front', rest'⟩, tail, same⟩ := Option.map_eq_some_iff.1 found
      cases same
      rw [ih tail, List.cons_append]

end GraphMarkup.Text
