import GraphMarkup.Proofs.Text.Words
import GraphMarkup.Proofs.Value.Representable

/-!
# Reading makes texts canonical

Many texts are read as one value. Writing that value gives the canonical one among them:
it is read as the same value again, and written again it does not change. For lists of
strings this depends on what a text says beside its tokens. It says nothing: whether a text
stands for an absent list is decided by its words, and these are the words of its tokens.
-/

namespace GraphMarkup.Value

open GraphMarkup.Text

/-! ## The word for an absent list -/

/-- A text stands for an absent list if that is its only word. -/
theorem saysAbsent_iff_words {text : String} :
    saysAbsent text ↔ words text.toList = [absentText.toList] := by
  rw [saysAbsent, beq_iff_eq, trim, ← String.toList_inj, String.toList_ofList,
    trimChars_eq_iff_words (by decide) (by decide)]

/-- The words of a text are those of its tokens. -/
theorem words_eq_flatMap_tokens (text : String) :
    words text.toList = (tokens text).flatMap fun token => words token.toList := by
  rw [words_eq_flatMap_splitOn ' ' rfl, tokens, List.flatMap_map]
  generalize text.toList.splitOn ' ' = parts
  induction parts with
  | nil => rfl
  | cons part parts ih =>
    cases part with
    | nil => exact ih
    | cons char part =>
      rw [List.filter_cons_of_pos rfl, List.flatMap_cons, List.flatMap_cons, ih,
        String.toList_ofList]

/-- Texts with the same tokens agree on whether a list is absent. -/
theorem saysAbsent_congr {a b : String} (same : tokens a = tokens b) :
    saysAbsent a = saysAbsent b := by
  rw [Bool.eq_iff_iff, saysAbsent_iff_words, saysAbsent_iff_words, words_eq_flatMap_tokens,
    words_eq_flatMap_tokens, same]

/-! ## What is read can be read back -/

/-- The tokens of a text that does not stand for an absent list can be told off from the text
that they are written as. -/
theorem listRepresentable_tokens {text : String} (present : saysAbsent text = false) :
    ListRepresentable .string (tokens text) := by
  have elements : ∀ token ∈ tokens text, token ≠ "" ∧ ' ' ∉ token.toList :=
    fun _ member => ne_empty_of_mem_tokens member
  have again : tokens (writeList .string (tokens text)) = tokens text := by
    rw [tokens_writeList elements]
    exact List.map_id _
  exact ⟨elements, (saysAbsent_congr again).trans present⟩

theorem listRepresentable_of_readTokens_eq_ok {kind : ScalarKind} {text : String}
    {values : List kind.Carrier} (present : saysAbsent text = false)
    (read : readTokens kind text = .ok values) : ListRepresentable kind values := by
  cases kind with
  | string =>
    rw [readTokens_string, Except.ok.injEq] at read
    exact read ▸ listRepresentable_tokens present
  | boolean | int | long | float | double => trivial

/-- Every value that is read from some text can be read back. -/
theorem representable_of_read {kind : ValueKind} {text : String} {value : kind.Carrier}
    (read : kind.read text = .ok value) : Representable kind value := by
  cases kind with
  | scalar element => trivial
  | list element =>
    rw [ValueKind.read] at read
    split at read
    · cases read
    · rename_i present
      exact listRepresentable_of_readTokens_eq_ok (Bool.not_eq_true _ ▸ present) read
  | nullable element =>
    rw [ValueKind.read] at read
    split at read
    · cases read
      trivial
    · rename_i present
      obtain ⟨values, found, rfl⟩ := map_eq_ok_iff.mp read
      exact listRepresentable_of_readTokens_eq_ok (Bool.not_eq_true _ ▸ present) found

/-! ## Canonical texts -/

/-- The text in which what a text says is written. -/
def ValueKind.canonicalText (kind : ValueKind) (text : String) : Except ValueError String :=
  kind.write <$> kind.read text

/-- A text that is read as a value has a canonical text, which is read as the very same value and is
its own canonical text. -/
theorem read_canonicalText {kind : ValueKind} {text : String} {value : kind.Carrier}
    (read : kind.read text = .ok value) :
    kind.canonicalText text = .ok (kind.write value) ∧
      kind.read (kind.write value) = .ok value ∧
      kind.canonicalText (kind.write value) = .ok (kind.write value) := by
  have again := read_write_of_representable (representable_of_read read)
  refine ⟨?_, again, ?_⟩
  · rw [ValueKind.canonicalText, read]
    rfl
  · rw [ValueKind.canonicalText, again]
    rfl

/-- A list with the word for an absent list among its elements, generously spaced. -/
theorem canonicalText_spacedWords :
    let kind := ValueKind.nullable .string
    let value : kind.Carrier := some ["\t", "null", "x"]
    kind.read "  \t   null x" = .ok value ∧
      kind.canonicalText "  \t   null x" = .ok (kind.write value) ∧
      kind.read (kind.write value) = .ok value ∧
      kind.canonicalText (kind.write value) = .ok (kind.write value) := by
  intro kind value
  have read : kind.read "  \t   null x" = .ok value := by
    rw [ValueKind.read, if_neg (by decide), readTokens_string]
    exact congrArg (fun found => Except.ok (some found)) (by decide)
  exact ⟨read, read_canonicalText read⟩

end GraphMarkup.Value
