import GraphMarkup.Proofs.Attributes.Entries
import GraphMarkup.Proofs.Value.Written

/-!
# Written attributes are read back

The accessors of a codec are fields if every getter gives what its own setter has
set last. Then the data that are written of an instance, read in any order onto any
instance that holds the defaults, give an instance whose attributes agree with those of
the first. What is left out in writing is equal to the default, which the second
instance holds.
-/

namespace GraphMarkup.Attributes

open GraphMarkup.Value

variable {α : Type}

/-- What is restored of a property: what was written, or the default if the property was left
out. -/
def Property.restored (property : Property α) (source : α) : property.kind.Carrier :=
  (property.default?.filter (property.kind.equals (property.get source))).getD (property.get source)

/-- What is restored agrees with what was there. -/
theorem Property.agrees_restored (property : Property α) (source : α) :
    property.kind.Agrees (property.get source) (property.restored source) := by
  rw [restored]
  cases kept : property.default?.filter (property.kind.equals (property.get source)) with
  | none => exact property.kind.agrees_refl _
  | some value => exact ValueKind.agrees_of_equals (Option.filter_eq_some_iff.mp kept).2

namespace Codec

/-- The accessors of a codec are independent fields. -/
structure Fields (codec : Codec α) : Prop where
  get_set : ∀ property ∈ codec.properties, ∀ value owner,
    property.get (property.set value owner) = value
  get_set_of_ne : ∀ property ∈ codec.properties, ∀ other ∈ codec.properties,
    other.name ≠ property.name → ∀ value owner,
      other.get (property.set value owner) = other.get owner

/-- No two attributes of a codec have one name. -/
def DistinctNames (codec : Codec α) : Prop :=
  (codec.properties.map (·.name)).Nodup

/-- The attributes of an instance can be read back from their texts. -/
def Representable (codec : Codec α) (owner : α) : Prop :=
  ∀ property ∈ codec.properties, Value.Representable property.kind (property.get owner)

/-- Two instances agree in all attributes. -/
def Agree (codec : Codec α) (a b : α) : Prop :=
  ∀ property ∈ codec.properties, property.kind.Agrees (property.get a) (property.get b)

/-- What two instances have in common if they differ only in their attributes. -/
structure Remainder (codec : Codec α) where
  Same : α → α → Prop
  equivalence : Equivalence Same
  set : ∀ property ∈ codec.properties, ∀ value owner, Same (property.set value owner) owner

/-- Nothing is asked of what is no attribute. -/
def Remainder.trivial (codec : Codec α) : codec.Remainder where
  Same _ _ := True
  equivalence := ⟨fun _ => .intro, fun _ => .intro, fun _ _ => .intro⟩
  set _ _ _ _ := .intro

/-- Two instances are the same apart from attributes, and agree in these. -/
def Remainder.Alike {codec : Codec α} (remainder : Remainder codec) (a b : α) : Prop :=
  remainder.Same a b ∧ codec.Agree a b

variable {codec : Codec α}

/-- Of distinct names each is its own first. -/
theorem DistinctNames.first (distinct : codec.DistinctNames) {before after : List (Property α)}
    {property : Property α} (split : codec.properties = before ++ property :: after) :
    ∀ other ∈ before, other.name ≠ property.name := by
  intro other inBefore
  rw [DistinctNames, split, List.map_append, List.map_cons] at distinct
  exact (List.nodup_append.mp distinct).2.2 other.name (List.mem_map_of_mem inBefore) property.name
    List.mem_cons_self

/-- Of distinct names each is found where it stands. -/
theorem find?_name (distinct : codec.DistinctNames) {property : Property α}
    (member : property ∈ codec.properties) :
    codec.properties.find? (·.name = property.name) = some property := by
  obtain ⟨before, after, split⟩ := List.append_of_mem member
  exact find?_first split (distinct.first split)

/-- Fields of distinct names are independent. -/
theorem Fields.independent (fields : codec.Fields) (distinct : codec.DistinctNames) :
    codec.Independent where
  get_set := fields.get_set
  apart := by
    have different : codec.properties.Pairwise fun earlier later => earlier.name ≠ later.name :=
      List.pairwise_map.mp distinct
    refine different.imp_of_mem ?_
    intro earlier later inEarlier inLater ne
    exact ⟨fields.get_set_of_ne earlier inEarlier later inLater ne.symm,
      fields.get_set_of_ne later inLater earlier inEarlier ne⟩

/-! ## What is written -/

variable {source owner result : α} {property : Property α} {entries : List (String × String)}

/-- The data of an instance are the texts of those attributes that are not left out. -/
theorem mem_write_iff {entry : String × String} :
    entry ∈ codec.write source ↔
      ∃ property ∈ codec.properties,
        property.write? source = some entry.2 ∧ property.name = entry.1 := by
  rw [write, List.mem_filterMap]
  apply exists_congr
  intro property
  rw [Option.map_eq_some_iff]
  constructor
  · rintro ⟨member, text, written, rfl⟩
    exact ⟨member, written, rfl⟩
  · rintro ⟨member, written, named⟩
    exact ⟨member, entry.2, written, Prod.ext named rfl⟩

/-- The text of an attribute that is not left out is that of its value. -/
theorem write?_eq_some {text : String} (written : property.write? source = some text) :
    text = property.kind.write (property.get source) ∧
      property.restored source = property.get source := by
  rw [Property.write?] at written
  split at written
  · cases written
  · rename_i kept
    cases written
    refine ⟨rfl, ?_⟩
    have none : property.default?.filter (property.kind.equals (property.get source)) = none := by
      rw [Option.filter_eq_none_iff]
      intro value given equal
      exact kept ((Option.any_eq_true _ _).mpr ⟨value, given, equal⟩)
    rw [Property.restored, none, Option.getD_none]

/-- An attribute that is left out is equal to its default. -/
theorem write?_eq_none (elided : property.write? source = none) :
    property.default? = some (property.restored source) := by
  rw [Property.write?] at elided
  split at elided
  · rename_i equal
    obtain ⟨value, given, equal⟩ := (Option.any_eq_true _ _).mp equal
    rw [Property.restored, given, Option.filter_some, if_pos equal, Option.getD_some]
  · cases elided

/-- No two of the data of an instance have one key. -/
theorem nodup_keys_write (distinct : codec.DistinctNames) (source : α) :
    ((codec.write source).map Prod.fst).Nodup := by
  rw [write, List.Nodup, List.pairwise_map, List.pairwise_filterMap]
  apply (List.pairwise_map.mp distinct).imp
  intro property other different entry written otherEntry otherWritten
  obtain ⟨text, -, rfl⟩ := Option.map_eq_some_iff.mp written
  obtain ⟨otherText, -, rfl⟩ := Option.map_eq_some_iff.mp otherWritten
  exact different

/-- The last entry for an attribute is the only one. -/
theorem latest?_write (distinct : codec.DistinctNames) (perm : entries.Perm (codec.write source))
    (member : property ∈ codec.properties) :
    latest? entries property.name = property.write? source := by
  have reversed : entries.reverse.Perm (codec.write source) :=
    (List.reverse_perm entries).trans perm
  rw [latest?]
  cases written : property.write? source with
  | some text =>
    apply lookup_of_mem ((reversed.map Prod.fst).nodup_iff.mpr (nodup_keys_write distinct source))
    exact reversed.mem_iff.mpr (mem_write_iff.mpr ⟨property, member, written, rfl⟩)
  | none =>
    rw [List.lookup_eq_none_iff]
    intro entry inEntries
    obtain ⟨other, isOther, otherWritten, named⟩ :=
      mem_write_iff.mp (reversed.mem_iff.mp inEntries)
    rw [bne_iff_ne]
    intro same
    have found := find?_name distinct isOther
    rw [named, ← same, find?_name distinct member] at found
    cases found
    rw [written] at otherWritten
    cases otherWritten

/-! ## Reading back -/

/-- The text of an attribute sets it to the value that was written. -/
theorem read_name (distinct : codec.DistinctNames) (member : property ∈ codec.properties)
    {value : property.kind.Carrier} (representable : Value.Representable property.kind value)
    (owner : α) :
    codec.read property.name (property.kind.write value) owner =
      .ok (property.set value owner) := by
  rw [read, find?_name distinct member]
  dsimp only
  rw [Property.read, read_write_of_representable representable]

/-- Entries that can be read wherever they stand can be read one after the other. -/
theorem exists_readEntries
    (each : ∀ entry ∈ entries, ∀ owner, ∃ result, codec.read entry.1 entry.2 owner = .ok result)
    (owner : α) : ∃ result, codec.readEntries entries owner = .ok result := by
  induction entries generalizing owner with
  | nil => exact ⟨owner, rfl⟩
  | cons entry entries ih =>
    obtain ⟨first, others⟩ := List.forall_mem_cons.mp each
    obtain ⟨middle, readFirst⟩ := first owner
    obtain ⟨result, readOthers⟩ := ih others middle
    refine ⟨result, ?_⟩
    rw [readEntries, List.foldlM_cons, readFirst]
    exact readOthers

/-- The data of an instance, read in any order onto any instance that holds the defaults, restore
every attribute. -/
theorem exists_restored_of_perm (independent : codec.Independent) (distinct : codec.DistinctNames)
    (representable : codec.Representable source) (perm : entries.Perm (codec.write source))
    (owner : α) :
    ∃ result, codec.readEntries entries (codec.applyDefaults owner) = .ok result ∧
      ∀ property ∈ codec.properties, property.get result = property.restored source := by
  have each : ∀ entry ∈ entries, ∀ owner, ∃ result,
      codec.read entry.1 entry.2 owner = .ok result := by
    intro entry inEntries owner
    obtain ⟨property, member, written, named⟩ := mem_write_iff.mp (perm.mem_iff.mp inEntries)
    rw [← named, (write?_eq_some written).1]
    exact ⟨_, read_name distinct member (representable property member) owner⟩
  obtain ⟨result, read⟩ := exists_readEntries each (codec.applyDefaults owner)
  refine ⟨result, read, ?_⟩
  intro property member
  obtain ⟨before, after, split⟩ := List.append_of_mem member
  have holds := get_of_readEntries_first independent split (distinct.first split) read
  rw [latest?_write distinct perm member] at holds
  cases written : property.write? source with
  | some text =>
    obtain ⟨rfl, restored⟩ := write?_eq_some written
    rw [written] at holds
    dsimp only at holds
    rw [read_write_of_representable (representable property member)] at holds
    rw [restored]
    exact (Except.ok.inj holds).symm
  | none =>
    rw [written] at holds
    rw [holds, get_applyDefaults independent split, write?_eq_none written, Option.getD_some]

/-- The data of an instance, read onto any instance, give one that agrees with the first and
is the same as the second apart from its attributes. -/
theorem readEntries_write (fields : codec.Fields) (distinct : codec.DistinctNames)
    (remainder : Remainder codec) {source : α} (representable : codec.Representable source)
    (owner : α) :
    ∃ result, codec.readEntries (codec.write source) (codec.applyDefaults owner) = .ok result ∧
      remainder.Same result owner ∧ codec.Agree source result := by
  obtain ⟨result, read, restored⟩ := exists_restored_of_perm (fields.independent distinct) distinct
    representable (.refl _) owner
  have byEntries : remainder.Same result (codec.applyDefaults owner) := by
    refine same_of_readEntries remainder.Same remainder.equivalence ?_ read
    intro entry _ owner result readEntry
    obtain ⟨property, first, value, -, rfl⟩ := exists_of_read readEntry
    exact remainder.set property (List.mem_of_find?_eq_some first) value owner
  have byDefaults : remainder.Same (codec.applyDefaults owner) owner :=
    same_foldl_applyDefault remainder.Same remainder.equivalence remainder.set owner
  refine ⟨result, read, remainder.equivalence.trans byEntries byDefaults, ?_⟩
  intro property member
  rw [restored property member]
  exact property.agrees_restored source

end Codec

end GraphMarkup.Attributes
