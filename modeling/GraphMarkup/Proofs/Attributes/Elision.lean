import GraphMarkup.Proofs.Attributes.Fields
import GraphMarkup.Proofs.Value.Equality

/-!
# Defaults that are left out

An attribute is left out in writing if it is equal to its default, and reading restores the
default. Being equal is not being the same for the two zeros of a floating-point format. So
everything is restored to the letter but a zero whose default is the other one.
-/

namespace GraphMarkup.Attributes

open GraphMarkup.Decimal
open GraphMarkup.Value

variable {α : Type}

/-- An attribute holds the zero that its default is not. -/
def Property.HidesZero (property : Property α) (source : α) : Prop :=
  ∃ value, property.default? = some value ∧ property.kind.OppositeZeros (property.get source) value

/-- An attribute that hides a zero is left out. -/
theorem Property.HidesZero.default? {property : Property α} {source : α}
    (hides : property.HidesZero source) : property.default? = some (property.restored source) := by
  obtain ⟨value, given, opposite⟩ := hides
  rw [restored, given, Option.filter_some, if_pos (ValueKind.equals_of_oppositeZeros opposite),
    Option.getD_some]

/-- What is restored of an attribute has the text of what was there, unless the attribute hides a
zero. -/
theorem Property.write_restored_iff {property : Property α} {source : α}
    (lists : property.kind.isList → property.default? = none) :
    property.kind.write (property.restored source) = property.kind.write (property.get source) ↔
      ¬ property.HidesZero source := by
  cases kept : property.default?.filter (property.kind.equals (property.get source)) with
  | none =>
    rw [restored, kept, Option.getD_none, eq_self, true_iff]
    rintro ⟨value, given, opposite⟩
    rw [given, Option.filter_some, if_pos (ValueKind.equals_of_oppositeZeros opposite)] at kept
    cases kept
  | some value =>
    obtain ⟨given, equal⟩ := Option.filter_eq_some_iff.mp kept
    have single : property.kind.isList = false := by
      rw [Bool.eq_false_iff]
      intro list
      cases given.symm.trans (lists list)
    rw [restored, kept, Option.getD_some, ValueKind.write_eq_iff_of_equals single equal, HidesZero]
    simp [given]

namespace Codec

/-- The data of an instance, read in any order onto any instance that holds the defaults, all can be
read. Every attribute then has the text that it had, also if it was left out, but for the zero
whose default is the other zero: there the default is what is restored. -/
theorem write_get_eq_iff_of_perm {declaration : Declaration α} {codec : Codec α}
    (compiled : declaration.compile = .ok codec) (independent : codec.Independent)
    (distinct : codec.DistinctNames) {source : α} (representable : codec.Representable source)
    {entries : List (String × String)} (perm : entries.Perm (codec.write source)) (owner : α) :
    ∃ result, codec.readEntries entries (codec.applyDefaults owner) = .ok result ∧
      ∀ property ∈ codec.properties,
        (property.kind.write (property.get result) = property.kind.write (property.get source) ↔
          ¬ property.HidesZero source) ∧
        (property.HidesZero source → property.default? = some (property.get result)) := by
  obtain ⟨result, read, restored⟩ :=
    exists_restored_of_perm independent distinct representable perm owner
  refine ⟨result, read, ?_⟩
  intro property member
  obtain ⟨marked, -, compiles⟩ :=
    exists_of_mem_partner (Declaration.forall₂_of_compile compiled) member
  rw [restored property member]
  exact ⟨property.write_restored_iff compiles.default?_eq_none, fun hides => hides.default?⟩

end Codec

/-- A sounding: a depth, whose default is zero, what was found there, and whether the ground was
reached. -/
structure Sounding where
  depth : Binary .double
  layers : List String
  grounded : Bool
deriving DecidableEq

namespace Sounding

/-- What a sounding says about its members. -/
def declaration : Declaration Sounding where
  typeName := "Sounding"
  members :=
    [{ name := "Depth"
       type := .ofKind (.scalar .double)
       get? := some depth
       set? := some fun value owner => { owner with depth := value }
       marking := .marked
       default? := some ⟨.ofKind (.scalar .double), (.zero : Binary .double)⟩ },
      { name := "Layers"
        type := .ofKind (.list .string)
        get? := some layers
        set? := some fun value owner => { owner with layers := value }
        marking := .marked
        default? := none },
      { name := "Grounded"
        type := .ofKind (.scalar .boolean)
        get? := some grounded
        set? := some fun value owner => { owner with grounded := value }
        marking := .marked
        default? := some ⟨.ofKind (.scalar .boolean), true⟩ }]

/-- The depth of a sounding. -/
def depthProperty : Property Sounding :=
  ⟨"Depth", .scalar .double, depth, fun value owner => { owner with depth := value },
    some (.zero : Binary .double)⟩

/-- The attributes of a sounding. -/
def codec : Codec Sounding where
  typeName := "Sounding"
  properties :=
    [depthProperty,
      ⟨"Layers", .list .string, layers, fun value owner => { owner with layers := value }, none⟩,
      ⟨"Grounded", .scalar .boolean, grounded,
        fun value owner => { owner with grounded := value }, some true⟩]

theorem independent : codec.Independent where
  get_set := by
    simp [codec, depthProperty]
  apart := by
    simp [codec, depthProperty, Property.LeavesAlone]

theorem distinctNames : codec.DistinctNames := by
  simp [Codec.DistinctNames, codec, depthProperty]

/-- A sounding at depth minus zero. -/
def surface : Sounding :=
  ⟨.finite true ⟨0, by decide⟩, ["sand", "clay"], false⟩

theorem representable_surface : codec.Representable surface := by
  simp only [Codec.Representable, codec, List.forall_mem_cons]
  refine ⟨trivial, ⟨by decide, by decide⟩, trivial, List.forall_mem_nil _⟩

/-- The data of a sounding, in another order and read onto a different one. -/
theorem write_get_eq_iff_surface :
    let entries := [("Grounded", "false"), ("Layers", "sand clay ")]
    declaration.compile = .ok codec ∧ codec.Independent ∧ codec.DistinctNames ∧
      codec.Representable surface ∧ entries.Perm (codec.write surface) ∧
      ∃ result, codec.readEntries entries (codec.applyDefaults ⟨.nan, ["mud"], true⟩) = .ok result ∧
        ∀ property ∈ codec.properties,
          (property.kind.write (property.get result) = property.kind.write (property.get surface) ↔
            ¬ property.HidesZero surface) ∧
          (property.HidesZero surface → property.default? = some (property.get result)) := by
  intro entries
  have compiled : declaration.compile = .ok codec := rfl
  have written : codec.write surface = [("Layers", "sand clay "), ("Grounded", "false")] := by
    decide
  have perm : entries.Perm (codec.write surface) := by
    rw [written]
    exact List.Perm.swap _ _ _
  exact ⟨compiled, independent, distinctNames, representable_surface, perm,
    Codec.write_get_eq_iff_of_perm compiled independent distinctNames representable_surface perm _⟩

/-- At depth minus zero nothing is written of the depth, and zero is restored. -/
theorem write_get_surface_ne :
    declaration.compile = .ok codec ∧ codec.Independent ∧ codec.DistinctNames ∧
      codec.Representable surface ∧ depthProperty ∈ codec.properties ∧
      ∃ result, codec.readEntries (codec.write surface)
          (codec.applyDefaults ⟨.nan, ["mud"], true⟩) = .ok result ∧
        depthProperty.kind.write (depthProperty.get surface) = "-0" ∧
          depthProperty.kind.write (depthProperty.get result) = "0" := by
  refine ⟨rfl, independent, distinctNames, representable_surface, List.mem_cons_self, ?_⟩
  exact ⟨⟨.zero, ["sand", "clay"], false⟩, by decide, by decide, by decide⟩

end Sounding

end GraphMarkup.Attributes
