import GraphMarkup.Proofs.Value.Scalar
import GraphMarkup.Value.Written

/-!
# Attribute values are read back

A value is read back from its text as the very same value. Lists are the exception:
a list of strings is only told off into its elements if none of them is empty or
holds a space, and only if its text is not the word for an absent list.
-/

namespace GraphMarkup.Value

open GraphMarkup.Text

/-! ## Values that can be read back -/

/-- The elements of a list can be told off from its text. -/
def ListRepresentable : (kind : ScalarKind) → List kind.Carrier → Prop
  | .string, values =>
      (∀ value ∈ values, value ≠ "" ∧ ' ' ∉ value.toList) ∧
        saysAbsent (writeList .string values) = false
  | .boolean, _ | .int, _ | .long, _ | .float, _ | .double, _ => True

/-- A value can be read back from its text. -/
def Representable : (kind : ValueKind) → kind.Carrier → Prop
  | .scalar _, _ => True
  | .list element, values => ListRepresentable element values
  | .nullable _, none => True
  | .nullable element, some values => ListRepresentable element values

/-! ## Lists -/

/-- A scalar that is not a string has a text. -/
theorem write_ne_empty {kind : ScalarKind} (notString : kind ≠ .string) (value : kind.Carrier) :
    kind.write value ≠ "" := by
  intro empty
  have read := read_write kind value
  rw [empty] at read
  cases kind with
  | boolean => cases read
  | int => cases read
  | long => cases read
  | float => cases read
  | double => cases read
  | string => exact notString rfl

/-- The texts of the elements are not empty and hold no space. -/
theorem element_of_listRepresentable {kind : ScalarKind} {values : List kind.Carrier}
    (representable : ListRepresentable kind values) :
    ∀ value ∈ values, kind.write value ≠ "" ∧ ' ' ∉ (kind.write value).toList := by
  by_cases string : kind = .string
  · subst string
    exact representable.1
  · intro value _
    refine ⟨write_ne_empty string value, ?_⟩
    intro space
    have solid := isBlank_of_marked (mem_write string value ' ' space)
    cases solid

theorem writeList_cons (kind : ScalarKind) (value : kind.Carrier) (values : List kind.Carrier) :
    (writeList kind (value :: values)).toList =
      (kind.write value).toList ++ ' ' :: (writeList kind values).toList := by
  simp [writeList, String.join_cons]

/-- Cutting the text of a list at its spaces gives the texts of its elements. -/
theorem tokens_writeList {kind : ScalarKind} {values : List kind.Carrier}
    (elements : ∀ value ∈ values, kind.write value ≠ "" ∧ ' ' ∉ (kind.write value).toList) :
    tokens (writeList kind values) = values.map kind.write := by
  induction values with
  | nil =>
    change tokens "" = []
    decide
  | cons value values ih =>
    obtain ⟨notEmpty, noSpace⟩ := elements value List.mem_cons_self
    have others := ih fun other member => elements other (List.mem_cons_of_mem _ member)
    have kept : (kind.write value).toList.isEmpty = false :=
      List.isEmpty_eq_false_iff.mpr fun none => notEmpty (String.toList_eq_nil_iff.mp none)
    rw [tokens] at others ⊢
    rw [writeList_cons, List.splitOn_append_cons_self_of_not_mem noSpace,
      List.filter_cons_of_pos (by rw [kept]; rfl), List.map_cons, others, String.ofList_toList,
      List.map_cons]

theorem mapM_read (kind : ScalarKind) (values : List kind.Carrier) :
    (values.map kind.write).mapM kind.read = .ok values := by
  induction values with
  | nil => rfl
  | cons value values ih =>
    rw [List.map_cons, List.mapM_cons, read_write, ih]
    rfl

theorem readTokens_writeList {kind : ScalarKind} {values : List kind.Carrier}
    (representable : ListRepresentable kind values) :
    readTokens kind (writeList kind values) = .ok values := by
  rw [readTokens, tokens_writeList (element_of_listRepresentable representable), mapM_read]

/-! ## The word for an absent list -/

theorem mem_of_mem_trim {text : String} {char : Char} (member : char ∈ (trim text).toList) :
    char ∈ text.toList := by
  rw [trim, String.toList_ofList, trimChars, dropRightWhile, List.mem_reverse] at member
  have kept := (List.dropWhile_sublist isBlank).subset member
  exact (List.dropWhile_sublist isBlank).subset (List.mem_reverse.mp kept)

/-- The text of a list of scalars that are not strings is not the word for an absent list. -/
theorem saysAbsent_writeList {kind : ScalarKind} (notString : kind ≠ .string)
    (values : List kind.Carrier) : saysAbsent (writeList kind values) = false := by
  have noLetter : 'n' ∉ (writeList kind values).toList := by
    induction values with
    | nil => exact List.not_mem_nil
    | cons value values ih =>
      intro letter
      rw [writeList_cons, List.mem_append] at letter
      rcases letter with inValue | inOthers
      · rcases mem_write notString value 'n' inValue with digit | mark
        · cases digit
        · revert mark
          decide
      · rcases List.mem_cons.mp inOthers with space | inOthers
        · cases space
        · exact ih inOthers
  rw [saysAbsent, beq_eq_false_iff_ne]
  intro absent
  apply noLetter
  apply mem_of_mem_trim
  rw [absent]
  decide

theorem saysAbsent_of_listRepresentable {kind : ScalarKind} {values : List kind.Carrier}
    (representable : ListRepresentable kind values) :
    saysAbsent (writeList kind values) = false := by
  by_cases string : kind = .string
  · subst string
    exact representable.2
  · exact saysAbsent_writeList string values

/-! ## All values -/

/-- A value that can be read back is read back from its text. -/
theorem read_write_of_representable {kind : ValueKind} {value : kind.Carrier}
    (representable : Representable kind value) : kind.read (kind.write value) = .ok value := by
  cases kind with
  | scalar element => exact read_write element value
  | list element =>
    rw [ValueKind.write, ValueKind.read, saysAbsent_of_listRepresentable representable,
      if_neg Bool.false_ne_true]
    exact readTokens_writeList representable
  | nullable element =>
    cases value with
    | none => rw [ValueKind.write, ValueKind.read, if_pos (by decide)]
    | some values =>
      rw [ValueKind.write, ValueKind.read, saysAbsent_of_listRepresentable representable,
        if_neg Bool.false_ne_true, readTokens_writeList representable]
      rfl

/-! ## Agreement -/

/-- Scalars agree if they are equal or the very same, which differs for "not a number". -/
def ScalarKind.Agrees (kind : ScalarKind) (a b : kind.Carrier) : Prop :=
  kind.equals a b ∨ a = b

/-- Values agree if their scalars do. -/
def ValueKind.Agrees : (kind : ValueKind) → kind.Carrier → kind.Carrier → Prop
  | .scalar element, a, b => element.Agrees a b
  | .list element, a, b => List.Forall₂ element.Agrees a b
  | .nullable _, none, none => True
  | .nullable element, some a, some b => List.Forall₂ element.Agrees a b
  | .nullable _, none, some _ => False
  | .nullable _, some _, none => False

theorem ValueKind.agrees_refl (kind : ValueKind) (value : kind.Carrier) :
    kind.Agrees value value := by
  have elements (element : ScalarKind) (values : List element.Carrier) :
      List.Forall₂ element.Agrees values values :=
    List.forall₂_same.mpr fun _ _ => Or.inr rfl
  cases kind with
  | scalar element => exact Or.inr rfl
  | list element => exact elements element value
  | nullable element =>
    cases value with
    | none => trivial
    | some values => exact elements element values

/-- Lists that are equal element by element agree. -/
theorem forall₂_of_isEqv {element : ScalarKind} {a b : List element.Carrier}
    (equal : List.isEqv a b element.equals) : List.Forall₂ element.Agrees a b := by
  induction a generalizing b with
  | nil =>
    cases b with
    | nil => exact .nil
    | cons _ _ => cases equal
  | cons _ _ ih =>
    cases b with
    | nil => cases equal
    | cons _ _ =>
      rw [List.isEqv, Bool.and_eq_true] at equal
      exact .cons (Or.inl equal.1) (ih equal.2)

/-- Equal values agree. -/
theorem ValueKind.agrees_of_equals {kind : ValueKind} {a b : kind.Carrier}
    (equal : kind.equals a b) : kind.Agrees a b := by
  cases kind with
  | scalar element => exact Or.inl equal
  | list element => exact forall₂_of_isEqv equal
  | nullable element =>
    cases a with
    | none =>
      cases b with
      | none => trivial
      | some _ => cases equal
    | some _ =>
      cases b with
      | none => cases equal
      | some _ => exact forall₂_of_isEqv equal

end GraphMarkup.Value
