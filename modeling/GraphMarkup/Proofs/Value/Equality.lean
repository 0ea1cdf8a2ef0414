import GraphMarkup.Proofs.Value.Written

/-!
# Equal values

Equality of numbers is numeric: the two zeros of a floating-point format are equal without
being the same, and have different texts. No other scalar is equal to a different one.
-/

namespace GraphMarkup.Decimal

variable {format : Format}

/-- Two zeros of different signs. -/
def Binary.OppositeZeros : Binary format → Binary format → Prop
  | .finite negative code, .finite negative' code' =>
      code.val = 0 ∧ code'.val = 0 ∧ negative ≠ negative'
  | _, _ => False

/-- Numbers that are equal are the same but for opposite zeros. -/
theorem Binary.eq_or_oppositeZeros_of_equals {a b : Binary format} (equal : a.equals b) :
    a = b ∨ a.OppositeZeros b := by
  cases a with
  | nan => cases equal
  | infinity negative =>
    cases b with
    | infinity negative' =>
      rw [equals, beq_iff_eq] at equal
      exact Or.inl (congrArg infinity equal)
    | nan | finite => cases equal
  | finite negative code =>
    cases b with
    | nan | infinity => cases equal
    | finite negative' code' =>
      rw [equals, Bool.and_eq_true, Bool.or_eq_true, beq_iff_eq, beq_iff_eq, beq_iff_eq] at equal
      obtain ⟨rfl, same⟩ := equal
      by_cases sign : negative = negative'
      · exact Or.inl (sign ▸ rfl)
      · have zero := same.resolve_left sign
        exact Or.inr ⟨zero, zero, sign⟩

/-- Opposite zeros are equal and not the same. -/
theorem Binary.OppositeZeros.equals_and_ne {a b : Binary format} (opposite : a.OppositeZeros b) :
    a.equals b ∧ a ≠ b := by
  cases a with
  | nan | infinity => cases opposite
  | finite negative code =>
    cases b with
    | nan | infinity => cases opposite
    | finite negative' code' =>
      obtain ⟨zero, zero', different⟩ := opposite
      constructor
      · have same : code = code' := Fin.ext (zero.trans zero'.symm)
        rw [equals, same, zero', beq_self_eq_true, beq_self_eq_true, Bool.or_true, Bool.and_true]
      · rintro ⟨⟩
        exact different rfl

end GraphMarkup.Decimal

namespace GraphMarkup.Value

/-- Two zeros of different signs, of a kind that has them. -/
def ScalarKind.OppositeZeros : (kind : ScalarKind) → kind.Carrier → kind.Carrier → Prop
  | .float, a, b => a.OppositeZeros b
  | .double, a, b => a.OppositeZeros b
  | .boolean, _, _ | .int, _, _ | .long, _, _ | .string, _, _ => False

/-- Two scalars that are zeros of different signs. -/
def ValueKind.OppositeZeros : (kind : ValueKind) → kind.Carrier → kind.Carrier → Prop
  | .scalar element, a, b => element.OppositeZeros a b
  | .list _, _, _ | .nullable _, _, _ => False

theorem ScalarKind.eq_or_oppositeZeros_of_equals {kind : ScalarKind} {a b : kind.Carrier}
    (equal : kind.equals a b) : a = b ∨ kind.OppositeZeros a b := by
  cases kind with
  | boolean | int | long | string => exact Or.inl (beq_iff_eq.mp equal)
  | float | double => exact Decimal.Binary.eq_or_oppositeZeros_of_equals equal

theorem ScalarKind.equals_and_ne_of_oppositeZeros {kind : ScalarKind} {a b : kind.Carrier}
    (opposite : kind.OppositeZeros a b) : kind.equals a b ∧ a ≠ b := by
  cases kind with
  | boolean | int | long | string => cases opposite
  | float | double => exact Decimal.Binary.OppositeZeros.equals_and_ne opposite

/-- No two scalars have one text. -/
theorem ScalarKind.write_inj {kind : ScalarKind} {a b : kind.Carrier} :
    kind.write a = kind.write b ↔ a = b := by
  refine ⟨fun same => ?_, congrArg kind.write⟩
  have read := read_write kind a
  rw [same, read_write] at read
  exact (Except.ok.inj read).symm

theorem ValueKind.equals_of_oppositeZeros {kind : ValueKind} {a b : kind.Carrier}
    (opposite : kind.OppositeZeros a b) : kind.equals a b := by
  cases kind with
  | scalar element => exact (ScalarKind.equals_and_ne_of_oppositeZeros opposite).1
  | list | nullable => cases opposite

/-- Equal scalars have one text but for opposite zeros. -/
theorem ValueKind.write_eq_iff_of_equals {kind : ValueKind} (single : kind.isList = false)
    {a b : kind.Carrier} (equal : kind.equals a b) :
    kind.write b = kind.write a ↔ ¬ kind.OppositeZeros a b := by
  cases kind with
  | list | nullable => cases single
  | scalar element =>
    constructor
    · intro same opposite
      have different := (ScalarKind.equals_and_ne_of_oppositeZeros opposite).2
      exact different (ScalarKind.write_inj.mp same).symm
    · intro apart
      have same := (ScalarKind.eq_or_oppositeZeros_of_equals equal).resolve_right apart
      rw [same]

end GraphMarkup.Value
