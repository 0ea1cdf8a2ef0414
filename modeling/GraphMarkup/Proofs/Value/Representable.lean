import GraphMarkup.Proofs.Result
import GraphMarkup.Proofs.Value.Written

/-!
# Which values are read back

A value is read back from its text exactly if it is representable. Cutting a text at its
spaces yields only words that are not empty and hold no space, so a list of strings with
any other element is read as a different list, and a list that is spelled like an absent
one is not read as a list at all.
-/

namespace GraphMarkup.Value

open GraphMarkup.Text

/-- What stands between two neighbouring separators holds none. -/
theorem not_mem_of_mem_splitOn {chars part : List Char} {separator : Char}
    (member : part ∈ chars.splitOn separator) : separator ∉ part := by
  induction chars generalizing part with
  | nil =>
    rw [List.splitOn_nil, List.mem_singleton] at member
    subst member
    exact List.not_mem_nil
  | cons char chars ih =>
    rw [List.splitOn_cons_eq_if_modifyHead] at member
    split at member
    · rcases List.mem_cons.mp member with rfl | behind
      · exact List.not_mem_nil
      · exact ih behind
    · rename_i other
      obtain ⟨first, parts, cut⟩ :=
        List.exists_cons_of_ne_nil (List.splitOn_ne_nil separator chars)
      rw [cut, List.modifyHead_cons] at member
      rw [cut] at ih
      rcases List.mem_cons.mp member with rfl | behind
      · rw [List.mem_cons, not_or]
        exact ⟨fun same => other (beq_iff_eq.mpr same.symm), ih List.mem_cons_self⟩
      · exact ih (List.mem_cons_of_mem _ behind)

/-- The words of a list are not empty and hold no space. -/
theorem ne_empty_of_mem_tokens {text token : String} (member : token ∈ tokens text) :
    token ≠ "" ∧ ' ' ∉ token.toList := by
  obtain ⟨chars, kept, rfl⟩ := List.mem_map.mp member
  obtain ⟨part, notEmpty⟩ := List.mem_filter.mp kept
  rw [String.toList_ofList]
  refine ⟨?_, not_mem_of_mem_splitOn part⟩
  intro empty
  rw [← String.toList_ofList (l := chars), empty] at notEmpty
  cases notEmpty

/-- Strings are read as they stand, so a list of strings is read as its words. -/
theorem readTokens_string (text : String) : readTokens .string text = .ok (tokens text) := by
  rw [readTokens]
  induction tokens text with
  | nil => rfl
  | cons token tokens ih =>
    rw [List.mapM_cons, ih]
    rfl

/-- A list that is read back can be told off from its text. -/
theorem listRepresentable_of_readTokens {kind : ScalarKind} {values : List kind.Carrier}
    (present : saysAbsent (writeList kind values) = false)
    (read : readTokens kind (writeList kind values) = .ok values) :
    ListRepresentable kind values := by
  cases kind with
  | string =>
    rw [readTokens_string, Except.ok.injEq] at read
    refine ⟨fun value member => ?_, present⟩
    rw [← read] at member
    exact ne_empty_of_mem_tokens member
  | boolean | int | long | float | double => trivial

/-- A value is read back from its text exactly if it is representable: every scalar, every list
of numbers or truth values, the absent list, and a list of strings if none of these is empty or
holds a space and the text is not the word for an absent list. -/
theorem read_write_eq_ok_iff (kind : ValueKind) (value : kind.Carrier) :
    kind.read (kind.write value) = .ok value ↔ Representable kind value := by
  refine ⟨fun read => ?_, read_write_of_representable⟩
  cases kind with
  | scalar element => trivial
  | list element =>
    rw [ValueKind.write, ValueKind.read] at read
    split at read
    · cases read
    · rename_i present
      exact listRepresentable_of_readTokens (Bool.not_eq_true _ ▸ present) read
  | nullable element =>
    cases value with
    | none => trivial
    | some values =>
      rw [ValueKind.write, ValueKind.read] at read
      split at read
      · cases read
      · rename_i present
        obtain ⟨found, read, same⟩ := map_eq_ok_iff.mp read
        cases same
        exact listRepresentable_of_readTokens (Bool.not_eq_true _ ▸ present) read

/-- Even a list of two words may be spelled like an absent one. -/
example : (ValueKind.nullable .string).read
    ((ValueKind.nullable .string).write (some ["\t", "null"])) = .ok none := by
  cbv

end GraphMarkup.Value
