import GraphMarkup.Attributes.Codec
import GraphMarkup.Proofs.Lists
import GraphMarkup.Proofs.Result
import Mathlib.Data.List.Pairwise

/-!
# Compiled declarations

The properties of a codec are those of the marked members of its declaration, in order. If
the members of an instance can be set without regard to each other, then so can these, and
setting them does not change a member that is not marked.
-/

namespace GraphMarkup.Attributes

open GraphMarkup.Value

variable {α : Type}

/-! ## Properties of members -/

/-- A member becomes a property: it is marked with its name, its type is a kind of values, and it
has both accessors and no default but a proper one. -/
inductive Member.Compiles : Member α → Property α → Prop
  | intro {memberName name : String} {kind : ValueKind} {get : α → kind.Carrier}
      {set : kind.Carrier → α → α} {marking : Marking} {declared? : Option DeclaredDefault}
      {default? : Option kind.Carrier}
      (named : Member.attributeName?
        ⟨memberName, .ofKind kind, some get, some set, marking, declared?⟩ = some name)
      (resolved : resolveDefault (.ofKind kind) kind.isList declared? = .ok default?) :
      Member.Compiles ⟨memberName, .ofKind kind, some get, some set, marking, declared?⟩
        ⟨name, kind, get, set, default?⟩

/-- Whether a member is an attribute. -/
def Member.isMarked (member : Member α) : Bool :=
  member.attributeName?.isSome

/-- A member gives rise to an attribute if it is marked. -/
theorem Member.isSome_of_attribute?_eq_ok {member : Member α} {typeName : String}
    {found : Option (Attribute α)} (checked : member.attribute? typeName = .ok found) :
    found.isSome = member.isMarked := by
  rw [Member.attribute?] at checked
  rw [Member.isMarked]
  split at checked
  · rename_i unmarked
    cases checked
    rw [unmarked]
    rfl
  · rename_i name marked
    rw [marked]
    split at checked
    · cases checked
    · cases checked
    · cases checked
      rfl

theorem Member.compiles_of_attribute? {member : Member α} {typeName : String}
    {marked : Attribute α} {property : Property α}
    (checked : member.attribute? typeName = .ok (some marked))
    (compiled : marked.compile typeName = .ok property) : member.Compiles property := by
  obtain ⟨memberName, type, get?, set?, marking, declared?⟩ := member
  rw [Member.attribute?] at checked
  split at checked
  · cases checked
  · rename_i name named
    cases get? with
    | none => cases checked
    | some get =>
      cases set? with
      | none => cases checked
      | some set =>
        cases checked
        cases type with
        | foreign type =>
          rw [Attribute.compile] at compiled
          split at compiled <;> cases compiled
        | ofKind kind =>
          rw [Attribute.compile] at compiled
          split at compiled
          · rename_i resolved
            cases compiled
            exact .intro named resolved
          · cases compiled

/-- A list has no default. -/
theorem Member.Compiles.default?_eq_none {member : Member α} {property : Property α}
    (compiles : member.Compiles property) (list : property.kind.isList) :
    property.default? = none := by
  obtain ⟨-, resolved⟩ := compiles
  rw [resolveDefault.eq_def] at resolved
  split at resolved
  · cases resolved
    rfl
  · split at resolved
    · cases resolved
    · split at resolved
      · cases resolved
      · cases resolved

/-! ## Codecs of declarations -/

/-- The properties of a codec are those of the marked members, in order. -/
theorem Declaration.forall₂_of_compile {declaration : Declaration α} {codec : Codec α}
    (compiled : declaration.compile = .ok codec) :
    List.Forall₂ Member.Compiles (declaration.members.filter Member.isMarked)
      codec.properties := by
  have pairs (typeName : String) : ∀ (members : List (Member α))
      (found : List (Option (Attribute α))) (properties : List (Property α)),
      members.mapM (Member.attribute? typeName) = .ok found →
      (found.filterMap id).mapM (Attribute.compile typeName) = .ok properties →
        List.Forall₂ Member.Compiles (members.filter Member.isMarked) properties := by
    intro members
    induction members with
    | nil =>
      rintro _ _ ⟨⟩ ⟨⟩
      exact .nil
    | cons member members ih =>
      intro found properties checked compiled
      rw [List.mapM_cons] at checked
      obtain ⟨first, checkedFirst, checked⟩ := bind_eq_ok_iff.mp checked
      obtain ⟨others, checkedOthers, checked⟩ := bind_eq_ok_iff.mp checked
      cases checked
      have isMarked := Member.isSome_of_attribute?_eq_ok checkedFirst
      cases first with
      | none =>
        rw [List.filter_cons_of_neg (by rw [← isMarked]; nofun)]
        exact ih others properties checkedOthers compiled
      | some marked =>
        change List.mapM _ (marked :: others.filterMap id) = _ at compiled
        rw [List.mapM_cons] at compiled
        obtain ⟨property, compiledFirst, compiled⟩ := bind_eq_ok_iff.mp compiled
        obtain ⟨rest, compiledOthers, compiled⟩ := bind_eq_ok_iff.mp compiled
        cases compiled
        rw [List.filter_cons_of_pos isMarked.symm]
        exact .cons (Member.compiles_of_attribute? checkedFirst compiledFirst)
          (ih others rest checkedOthers compiledOthers)
  obtain ⟨attributes, discovered, compiled⟩ := bind_eq_ok_iff.mp compiled
  obtain ⟨found, checked, same⟩ := bind_eq_ok_iff.mp discovered
  obtain ⟨properties, compiledAll, made⟩ := bind_eq_ok_iff.mp compiled
  cases same
  cases made
  exact pairs _ _ _ _ checked compiledAll

/-! ## Independence -/

/-- Setting one member does not change what another one holds. -/
def Member.LeavesAlone (member other : Member α) : Prop :=
  ∀ set, member.set? = some set → ∀ get, other.get? = some get →
    ∀ value owner, get (set value owner) = get owner

/-- The marked members of an instance hold what was set last, and setting them does not change the
other members, marked or not. -/
structure Declaration.Independent (declaration : Declaration α) : Prop where
  get_set : ∀ member ∈ declaration.members, member.isMarked → ∀ get, member.get? = some get →
    ∀ set, member.set? = some set → ∀ value owner, get (set value owner) = value
  apart : declaration.members.Pairwise fun earlier later =>
    (earlier.isMarked → earlier.LeavesAlone later) ∧ (later.isMarked → later.LeavesAlone earlier)

/-- Setting a property does not change what is seen of an instance. -/
def Property.LeavesAlone {β : Type} (property : Property α) (observe : α → β) : Prop :=
  ∀ value owner, observe (property.set value owner) = observe owner

/-- The properties of a codec hold what was set last, each without regard to the others, even to
one of its name. -/
structure Codec.Independent (codec : Codec α) : Prop where
  get_set : ∀ property ∈ codec.properties, ∀ value owner,
    property.get (property.set value owner) = value
  apart : codec.properties.Pairwise fun earlier later =>
    earlier.LeavesAlone later.get ∧ later.LeavesAlone earlier.get

/-- Members that leave each other alone have properties that do. -/
theorem Member.LeavesAlone.of_compiles {member other : Member α}
    {property otherProperty : Property α} (alone : member.LeavesAlone other)
    (compiles : member.Compiles property) (otherCompiles : other.Compiles otherProperty) :
    property.LeavesAlone otherProperty.get := by
  obtain ⟨-, -⟩ := compiles
  obtain ⟨-, -⟩ := otherCompiles
  exact alone _ rfl _ rfl

variable {declaration : Declaration α} {codec : Codec α}

/-- The properties of independent members are independent. -/
theorem Codec.independent_of_compile (independent : declaration.Independent)
    (compiled : declaration.compile = .ok codec) : codec.Independent where
  get_set := by
    intro property inside
    obtain ⟨member, isMember, compiles⟩ :=
      exists_of_mem_partner (Declaration.forall₂_of_compile compiled) inside
    obtain ⟨isMember, marked⟩ := List.mem_filter.mp isMember
    have holds := independent.get_set member isMember marked
    obtain ⟨-, -⟩ := compiles
    exact holds _ rfl _ rfl
  apart := by
    apply pairwise_of_forall₂ (Declaration.forall₂_of_compile compiled)
      (independent.apart.sublist List.filter_sublist)
    rintro earlier inEarlier later inLater property laterProperty compiles laterCompiles
      ⟨forth, back⟩
    have forth := forth (List.mem_filter.mp inEarlier).2
    have back := back (List.mem_filter.mp inLater).2
    exact ⟨forth.of_compiles compiles laterCompiles, back.of_compiles laterCompiles compiles⟩

/-- Setting a property does not change a member that is not marked. -/
theorem Declaration.Independent.leavesAlone_unmarked (independent : declaration.Independent)
    (compiled : declaration.compile = .ok codec) {member : Member α}
    (isMember : member ∈ declaration.members) (unmarked : member.isMarked = false)
    {get : α → member.type.Carrier} (given : member.get? = some get) :
    ∀ property ∈ codec.properties, property.LeavesAlone get := by
  intro property inside
  obtain ⟨other, isOther, compiles⟩ :=
    exists_of_mem_partner (Declaration.forall₂_of_compile compiled) inside
  obtain ⟨isOther, marked⟩ := List.mem_filter.mp isOther
  have different : other ≠ member := by
    rintro rfl
    rw [unmarked] at marked
    cases marked
  have symmetric : Std.Symm fun earlier later : Member α =>
      (earlier.isMarked → earlier.LeavesAlone later) ∧
        (later.isMarked → later.LeavesAlone earlier) :=
    ⟨fun _ _ both => both.symm⟩
  have alone := (independent.apart.forall isOther isMember different).1 marked
  obtain ⟨-, -⟩ := compiles
  exact alone _ rfl get given

end GraphMarkup.Attributes
