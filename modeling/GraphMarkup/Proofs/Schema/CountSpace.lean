import GraphMarkup.Proofs.Schema.GraphSchema
import GraphMarkup.Proofs.Text.Integer

/-!
# Attributes that hold counts

A type stands for the natural numbers if its bases lead to the built-in type of that name, by
named types that list no values. Attributes of such a type take digits, with or without a plus
sign in front of them, up to a bound that the natural numbers do not have, and no zero with a
minus sign.
-/

namespace GraphMarkup.Schema

open GraphMarkup.Text

/-- The bases of a type lead to the built-in natural numbers, over as many named types, none of
which lists values. -/
inductive DerivesNatural (schema : Schema) : Nat → String → Prop where
  | builtin {type : String} (builtin : isBuiltin type)
      (natural : unqualified type = "nonNegativeInteger") : DerivesNatural schema 0 type
  | restriction {type base : String} {declared : SimpleType} {count : Nat}
      (named : isBuiltin type = false) (found : schema.simpleType? type = some declared)
      (unlisted : declared.enumeration = []) (restricts : declared.base? = some base)
      (derives : DerivesNatural schema count base) : DerivesNatural schema (count + 1) type

/-- A type has the lexical space of the natural numbers exactly if its bases lead to them in
fewer steps than are followed. -/
theorem lexicalSpaceOfType_eq_nonNegativeInteger_iff {schema : Schema} {steps : Nat}
    {type : String} :
    schema.lexicalSpaceOfType steps type = .nonNegativeInteger ↔
      ∃ count < steps, DerivesNatural schema count type := by
  constructor
  · intro natural
    fun_induction lexicalSpaceOfType schema steps type with
    | case1 => cases natural
    | case2 steps type builtin kind isNatural =>
      exact ⟨0, Nat.succ_pos steps, .builtin builtin isNatural⟩
    | case3 => cases natural
    | case4 => cases natural
    | case5 => cases natural
    | case6 => cases natural
    | case7 => cases natural
    | case8 steps type notBuiltin declared found notListed base restricts ih =>
      obtain ⟨count, less, derives⟩ := ih natural
      have unlisted : declared.enumeration = [] := by
        simpa using notListed
      exact ⟨count + 1, Nat.succ_lt_succ less,
        .restriction (Bool.eq_false_iff.mpr notBuiltin) found unlisted restricts derives⟩
  · rintro ⟨count, less, derives⟩
    induction derives generalizing steps with
    | builtin builtin natural =>
      obtain ⟨steps, rfl⟩ := Nat.exists_eq_add_one.mpr less
      rw [lexicalSpaceOfType, if_pos builtin]
      exact if_pos natural
    | restriction named found unlisted restricts _ ih =>
      obtain ⟨steps, rfl⟩ := Nat.exists_eq_add_one.mpr (Nat.zero_lt_of_lt less)
      rw [lexicalSpaceOfType, if_neg (Bool.eq_false_iff.mp named), found]
      dsimp only
      rw [unlisted, restricts]
      exact ih (Nat.lt_of_succ_lt_succ less)

/-- The texts for a natural number: its digits, which a plus sign may precede; zeros may have a
minus sign. -/
inductive SpellsNatural : List Char → Nat → Prop where
  | unsigned {digits : List Char} {number : Nat} (denotes : Denotes digits number) :
      SpellsNatural digits number
  | positive {digits : List Char} {number : Nat} (denotes : Denotes digits number) :
      SpellsNatural ('+' :: digits) number
  | negativeZero {zeros : List Char} (nonempty : zeros ≠ []) (zero : ∀ char ∈ zeros, char = '0') :
      SpellsNatural ('-' :: zeros) 0

/-- A text is taken for a natural number below the bound if it spells one without a minus sign. -/
theorem accepts_nonNegativeInteger_iff (value : String) :
    LexicalSpace.nonNegativeInteger.accepts value ↔
      ∃ number, SpellsNatural (trim value).toList number ∧
        (trim value).toList.head? ≠ some '-' ∧ number < UInt64.size := by
  have bound : ∀ number, number ≤ UInt64.size - 1 ↔ number < UInt64.size :=
    fun number => Nat.le_sub_one_iff_lt (by decide)
  have read : LexicalSpace.nonNegativeInteger.accepts value ↔
      ∃ number, readNatural 10 (UInt64.size - 1) (trim value).toList = .ok number := by
    rw [LexicalSpace.accepts]
    cases readNatural 10 (UInt64.size - 1) (trim value).toList <;> simp [Except.toBool]
  simp only [read, readNatural_eq_ok_iff, bound]
  constructor
  · rintro ⟨number, digits, unsigned | positive, denotes, below⟩
    · rw [unsigned]
      refine ⟨number, .unsigned denotes, ?_, below⟩
      intro minus
      cases denotes.decimal '-' (List.mem_of_head? minus)
    · rw [positive]
      exact ⟨number, .positive denotes, by simp, below⟩
  · rintro ⟨number, spells, noMinus, below⟩
    generalize (trim value).toList = chars at spells noMinus
    cases spells with
    | unsigned denotes => exact ⟨number, _, .inl rfl, denotes, below⟩
    | positive denotes => exact ⟨number, _, .inr rfl, denotes, below⟩
    | negativeZero => exact absurd rfl noMinus

/-- An attribute whose type leads to the natural numbers takes exactly the texts for those that
fit into a machine word, except zeros with a minus sign. -/
theorem accepts_count_iff {schema : Schema} {attributeName type : String} {count : Nat}
    (typed : schema.attributeTypes.find? attributeName = some type)
    (derives : DerivesNatural schema count type) (short : count ≤ 15) (value : String) :
    (schema.lexicalSpace attributeName).accepts value ↔
      ∃ number, SpellsNatural (trim value).toList number ∧
        (trim value).toList.head? ≠ some '-' ∧ number < UInt64.size := by
  have natural : schema.lexicalSpace attributeName = .nonNegativeInteger := by
    rw [lexicalSpace, typed]
    exact lexicalSpaceOfType_eq_nonNegativeInteger_iff.mpr
      ⟨count, Nat.lt_succ_of_le short, derives⟩
  rw [natural, accepts_nonNegativeInteger_iff]

/-- A schema with a type that restricts another one, which restricts the natural numbers. -/
def countingSchema : Schema where
  types := [("level", ⟨some "own:amount", []⟩), ("amount", ⟨some "xs:nonNegativeInteger", []⟩)]
  attributeTypes := [("depth", "own:level")]

/-- The greatest number that fits is taken, whatever zeros and blanks stand around it. -/
theorem accepts_greatestCount :
    countingSchema.attributeTypes.find? "depth" = some "own:level" ∧
      DerivesNatural countingSchema 2 "own:level" ∧
        (countingSchema.lexicalSpace "depth").accepts " +0018446744073709551615\n" := by
  have typed : countingSchema.attributeTypes.find? "depth" = some "own:level" := by
    decide
  have derives : DerivesNatural countingSchema 2 "own:level" :=
    .restriction (by decide) (by decide : _ = some ⟨some "own:amount", []⟩) rfl rfl
      (.restriction (by decide) (by decide : _ = some ⟨some "xs:nonNegativeInteger", []⟩) rfl rfl
        (.builtin (by decide) (by decide)))
  refine ⟨typed, derives, (accepts_count_iff typed derives (by decide) _).mpr ?_⟩
  refine ⟨18446744073709551615, ?_, by decide, by decide⟩
  exact .positive (by decide : Denotes "0018446744073709551615".toList 18446744073709551615)

/-- Graph documents count their nodes in such an attribute, which takes neither a zero with a
minus sign nor the first number that does not fit. -/
theorem accepts_nodeCount :
    load Resolver.embedded "graphml.xsd" = .ok graphSchema ∧
      graphSchema.attributeTypes.find? "parse.nodes" = some "xs:nonNegativeInteger" ∧
      DerivesNatural graphSchema 0 "xs:nonNegativeInteger" ∧
      (SpellsNatural (trim "-0").toList 0 ∧
        (graphSchema.lexicalSpace "parse.nodes").accepts "-0" = false) ∧
      SpellsNatural (trim "18446744073709551616").toList 18446744073709551616 ∧
        (graphSchema.lexicalSpace "parse.nodes").accepts "18446744073709551616" = false := by
  refine ⟨load_embedded, by decide, .builtin (by decide) (by decide), ⟨?_, by decide⟩, ?_,
    by decide⟩
  · exact .negativeZero (List.cons_ne_nil '0' []) (by decide)
  · exact .unsigned (by decide)

end GraphMarkup.Schema
