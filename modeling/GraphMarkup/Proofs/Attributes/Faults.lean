import GraphMarkup.Proofs.Attributes.Compilation

/-!
# Faulty declarations

A declaration compiles exactly if all its marked members are valid, and then every one of them
has become a property. Otherwise one error is reported: that of the first marked member
without an accessor, wherever it stands, and if there is none that of the first marked member
whose default or type is at fault. Of several faults of a member the first in the order of
checks is reported.
-/

namespace GraphMarkup.Attributes

open GraphMarkup.Value

variable {α : Type}

/-! ## What can be wrong with a member -/

/-- A member can be got and set. -/
structure Member.HasAccessors (member : Member α) : Prop where
  getter : member.get?.isSome
  setter : member.set?.isSome

/-- Nothing is wrong with a marked member: it has both accessors, its type is a kind of values, and
a default that it declares is present, of its own type and not that of a list. -/
structure Member.Valid (member : Member α) : Prop extends member.HasAccessors where
  supported : member.type.kind?.isSome
  default : ∀ declared, member.default? = some declared →
    declared.type ≠ .unit ∧ declared.type = member.type ∧
      ∀ kind, member.type.kind? = some kind → kind.isList = false

/-- What is wrong with a marked member, each fault on its own terms. -/
inductive Member.HasFault (member : Member α) : ConfigurationFault → Prop
  | getter (absent : member.get? = none) : member.HasFault (.missingAccessor .getter)
  | setter (absent : member.set? = none) : member.HasFault (.missingAccessor .setter)
  | nullDefault {declared : DeclaredDefault} (given : member.default? = some declared)
      (null : declared.type = .unit) : member.HasFault .nullDefault
  | defaultTypeMismatch {declared : DeclaredDefault} (given : member.default? = some declared)
      (other : declared.type ≠ member.type) :
      member.HasFault (.defaultTypeMismatch member.type declared.type)
  | listDefault {kind : ValueKind} (given : member.default?.isSome)
      (known : member.type.kind? = some kind) (list : kind.isList) : member.HasFault .listDefault
  | unsupportedType (unknown : member.type.kind? = none) :
      member.HasFault (.unsupportedType member.type)

/-- The place of a fault in the order of checks. -/
def ConfigurationFault.rank : ConfigurationFault → Nat
  | .missingAccessor .getter => 0
  | .missingAccessor .setter => 1
  | .nullDefault => 2
  | .defaultTypeMismatch _ _ => 3
  | .listDefault => 4
  | .unsupportedType _ => 5

/-- The fault of a member that stands first in the order of checks. -/
structure Member.FirstFault (member : Member α) (fault : ConfigurationFault) : Prop where
  hasFault : member.HasFault fault
  first : ∀ other, member.HasFault other → fault.rank ≤ other.rank

/-- A default passes the checks if it is a value of the wanted type, which is no list. -/
theorem resolveDefault_eq_ok_iff {type : MemberType} {isList : Bool}
    {declared? : Option DeclaredDefault} {value? : Option type.Carrier} :
    resolveDefault type isList declared? = .ok value? ↔
      declared? = value?.map (DeclaredDefault.mk type) ∧
        (value?.isSome → type ≠ .unit ∧ isList = false) := by
  cases declared? with
  | none => cases value? <;> simp [resolveDefault]
  | some declared =>
    obtain ⟨declaredType, value⟩ := declared
    by_cases same : declaredType = type
    · subst same
      cases value? <;> cases isList <;> by_cases null : declaredType = .unit <;>
        simp [resolveDefault, DeclaredDefault.isNull, null]
    · have differ : some ⟨declaredType, value⟩ ≠ value?.map (DeclaredDefault.mk type) := by
        intro given
        obtain ⟨_, -, equal⟩ := Option.map_eq_some_iff.mp given.symm
        exact same (congrArg DeclaredDefault.type equal).symm
      rw [resolveDefault.eq_def]
      dsimp only
      rw [dif_neg same]
      split <;> simp [differ]

namespace Member

variable {member : Member α} {fault : ConfigurationFault}

/-- A member has at most one fault of a rank. -/
theorem HasFault.eq_of_rank_eq {other : ConfigurationFault} (left : member.HasFault fault)
    (right : member.HasFault other) (same : fault.rank = other.rank) : fault = other := by
  cases left with
  | defaultTypeMismatch given _ =>
    cases right with
    | defaultTypeMismatch otherGiven _ =>
      cases given.symm.trans otherGiven
      rfl
    | _ => cases same
  | _ =>
    -- the other faults are told apart by their rank
    cases right <;> simp_all [ConfigurationFault.rank]

theorem FirstFault.unique {other : ConfigurationFault} (left : member.FirstFault fault)
    (right : member.FirstFault other) : fault = other :=
  left.hasFault.eq_of_rank_eq right.hasFault
    (Nat.le_antisymm (left.first _ right.hasFault) (right.first _ left.hasFault))

/-- A valid member has no fault. -/
theorem Valid.not_hasFault (valid : member.Valid) : ¬member.HasFault fault := by
  intro hasFault
  cases hasFault with
  | getter absent => simpa [absent] using valid.getter
  | setter absent => simpa [absent] using valid.setter
  | nullDefault given null => exact (valid.default _ given).1 null
  | defaultTypeMismatch given other => exact other (valid.default _ given).2.1
  | listDefault given known list =>
    obtain ⟨declared, given⟩ := Option.isSome_iff_exists.mp given
    rw [(valid.default declared given).2.2 _ known] at list
    cases list
  | unsupportedType unknown => simpa [unknown] using valid.supported

/-! ## Checks that are passed -/

/-- A member with both accessors lacks none. -/
theorem HasAccessors.two_le_rank (accessors : member.HasAccessors)
    (hasFault : member.HasFault fault) : 2 ≤ fault.rank := by
  cases hasFault with
  | getter absent => simpa [absent] using accessors.getter
  | setter absent => simpa [absent] using accessors.setter
  | _ => simp [ConfigurationFault.rank]

theorem HasAccessors.three_le_rank (accessors : member.HasAccessors)
    (present : ∀ declared, member.default? = some declared → declared.type ≠ .unit)
    (hasFault : member.HasFault fault) : 3 ≤ fault.rank := by
  have behind := accessors.two_le_rank hasFault
  cases hasFault with
  | nullDefault given null => exact absurd null (present _ given)
  | _ => simp [ConfigurationFault.rank] at behind ⊢

theorem HasAccessors.four_le_rank (accessors : member.HasAccessors)
    (present : ∀ declared, member.default? = some declared → declared.type ≠ .unit)
    (same : ∀ declared, member.default? = some declared → declared.type = member.type)
    (hasFault : member.HasFault fault) : 4 ≤ fault.rank := by
  have behind := accessors.three_le_rank present hasFault
  cases hasFault with
  | defaultTypeMismatch given other => exact absurd (same _ given) other
  | _ => simp [ConfigurationFault.rank] at behind ⊢

theorem HasAccessors.five_le_rank (accessors : member.HasAccessors)
    (present : ∀ declared, member.default? = some declared → declared.type ≠ .unit)
    (same : ∀ declared, member.default? = some declared → declared.type = member.type)
    (unknown : member.type.kind? = none) (hasFault : member.HasFault fault) :
    5 ≤ fault.rank := by
  have behind := accessors.four_le_rank present same hasFault
  cases hasFault with
  | listDefault given known list => simp [unknown] at known
  | _ => simp [ConfigurationFault.rank] at behind ⊢

/-! ## The checks of a member -/

/-- The default of a member is checked for a value, then for its type, then for lists. -/
theorem firstFault_of_resolveDefault (accessors : member.HasAccessors) {isList : Bool}
    (isList_eq : isList = member.type.kind?.any ValueKind.isList)
    (fails : resolveDefault member.type isList member.default? = .error fault) :
    member.FirstFault fault := by
  rw [resolveDefault.eq_def] at fails
  split at fails
  · cases fails
  rename_i declared given
  split at fails
  · rename_i null
    cases fails
    exact ⟨.nullDefault given (beq_iff_eq.mp null), fun _ => accessors.two_le_rank⟩
  rename_i present
  have present : ∀ other, member.default? = some other → other.type ≠ .unit := by
    intro other otherGiven
    cases given.symm.trans otherGiven
    exact fun null => present (beq_iff_eq.mpr null)
  split at fails
  · rename_i same
    have same : ∀ other, member.default? = some other → other.type = member.type := by
      intro other otherGiven
      cases given.symm.trans otherGiven
      exact same
    split at fails
    · rename_i list
      cases fails
      rw [isList_eq, Option.any_eq_true] at list
      obtain ⟨kind, known, list⟩ := list
      exact ⟨.listDefault (Option.isSome_of_eq_some given) known list,
        fun _ => accessors.four_le_rank present same⟩
    · cases fails
  · rename_i different
    cases fails
    exact ⟨.defaultTypeMismatch given different, fun _ => accessors.three_le_rank present⟩

/-- The accessors of a marked member are looked at, the getter first. -/
theorem attribute?_eq_error {typeName : String} {error : ConfigurationError}
    (fails : member.attribute? typeName = .error error) :
    member.isMarked ∧ ∃ accessor, member.FirstFault (.missingAccessor accessor) ∧
      error = ⟨typeName, member.name, .missingAccessor accessor⟩ := by
  rw [attribute?] at fails
  split at fails
  · cases fails
  rename_i name named
  have marked : member.isMarked := Option.isSome_of_eq_some named
  split at fails
  · rename_i absent
    cases fails
    exact ⟨marked, .getter, ⟨.getter absent, fun _ _ => Nat.zero_le _⟩, rfl⟩
  · rename_i get given absent
    cases fails
    refine ⟨marked, .setter, ⟨.setter absent, ?_⟩, rfl⟩
    intro other hasFault
    cases hasFault with
    | getter missing => simp [given] at missing
    | _ => simp [ConfigurationFault.rank]
  · cases fails

/-- A marked member whose accessors have been looked at has both. -/
theorem hasAccessors_of_attribute? {typeName : String} {found? : Option (Attribute α)}
    (checked : member.attribute? typeName = .ok found?) (marked : member.isMarked) :
    member.HasAccessors := by
  rw [attribute?] at checked
  split at checked
  · rename_i unmarked
    rw [isMarked, unmarked] at marked
    cases marked
  · split at checked
    · cases checked
    · cases checked
    · rename_i getter setter
      exact ⟨Option.isSome_of_eq_some getter, Option.isSome_of_eq_some setter⟩

/-- Behind the accessors the default is checked, and the type last. -/
theorem compile_eq_error {typeName : String} {found : Attribute α} {error : ConfigurationError}
    (checked : member.attribute? typeName = .ok (some found))
    (fails : found.compile typeName = .error error) :
    ∃ name, member.attributeName? = some name ∧
      ∃ fault, member.FirstFault fault ∧ error = ⟨typeName, name, fault⟩ := by
  have marked : member.isMarked := (isSome_of_attribute?_eq_ok checked).symm
  have accessors := hasAccessors_of_attribute? checked marked
  obtain ⟨memberName, type, get?, set?, marking, declared?⟩ := member
  rw [attribute?] at checked
  split at checked
  · cases checked
  rename_i name named
  split at checked
  · cases checked
  · cases checked
  cases checked
  refine ⟨name, named, ?_⟩
  cases type with
  | ofKind kind =>
    rw [Attribute.compile] at fails
    split at fails
    · cases fails
    · rename_i fault resolved
      cases fails
      exact ⟨fault, firstFault_of_resolveDefault accessors rfl resolved, rfl⟩
  | foreign type =>
    rw [Attribute.compile] at fails
    split at fails
    · rename_i value? resolved
      cases fails
      obtain ⟨rfl, sound⟩ := resolveDefault_eq_ok_iff.mp resolved
      refine ⟨_, ⟨.unsupportedType rfl, fun _ => accessors.five_le_rank ?_ ?_ rfl⟩, rfl⟩
      · intro declared given
        obtain ⟨value, present, rfl⟩ := Option.map_eq_some_iff.mp given
        exact (sound (Option.isSome_of_eq_some present)).1
      · intro declared given
        obtain ⟨value, -, rfl⟩ := Option.map_eq_some_iff.mp given
        rfl
    · rename_i fault resolved
      cases fails
      exact ⟨fault, firstFault_of_resolveDefault accessors rfl resolved, rfl⟩

/-- The property that a member gives rise to, if it is marked: both checks of one member. -/
def property? (typeName : String) (member : Member α) :
    Except ConfigurationError (Option (Property α)) := do
  match ← member.attribute? typeName with
  | none => pure none
  | some found => some <$> found.compile typeName

variable {typeName : String} {error : ConfigurationError}

theorem property?_of_unmarked (checked : member.attribute? typeName = .ok none) :
    member.property? typeName = .ok none := by
  rw [property?, checked]
  rfl

theorem property?_of_marked {found : Attribute α}
    (checked : member.attribute? typeName = .ok (some found)) :
    member.property? typeName = some <$> found.compile typeName := by
  rw [property?, checked]
  rfl

/-- A member of a codec is valid. -/
theorem Compiles.valid {property : Property α} (compiles : member.Compiles property) :
    member.Valid := by
  obtain ⟨named, resolved⟩ := compiles
  obtain ⟨rfl, sound⟩ := resolveDefault_eq_ok_iff.mp resolved
  refine ⟨⟨rfl, rfl⟩, rfl, ?_⟩
  intro declared given
  obtain ⟨value, present, rfl⟩ := Option.map_eq_some_iff.mp given
  obtain ⟨notNull, notList⟩ := sound (Option.isSome_of_eq_some present)
  refine ⟨notNull, rfl, ?_⟩
  rintro kind ⟨⟩
  exact notList

theorem exists_attribute?_eq_ok_iff :
    (∃ found?, member.attribute? typeName = .ok found?) ↔
      (member.isMarked → member.HasAccessors) := by
  constructor
  · rintro ⟨found?, checked⟩
    exact hasAccessors_of_attribute? checked
  · intro complete
    cases checked : member.attribute? typeName with
    | ok found? => exact ⟨found?, rfl⟩
    | error cause =>
      obtain ⟨marked, accessor, fault, -⟩ := attribute?_eq_error checked
      have behind := (complete marked).two_le_rank fault.hasFault
      cases accessor <;> simp [ConfigurationFault.rank] at behind

theorem attribute?_eq_error_iff :
    member.attribute? typeName = .error error ↔
      member.isMarked ∧ ∃ accessor, member.FirstFault (.missingAccessor accessor) ∧
        error = ⟨typeName, member.name, .missingAccessor accessor⟩ := by
  refine ⟨attribute?_eq_error, ?_⟩
  rintro ⟨marked, accessor, fault, rfl⟩
  cases checked : member.attribute? typeName with
  | ok found? =>
    have behind := (hasAccessors_of_attribute? checked marked).two_le_rank fault.hasFault
    cases accessor <;> simp [ConfigurationFault.rank] at behind
  | error cause =>
    obtain ⟨-, other, otherFault, rfl⟩ := attribute?_eq_error checked
    rw [fault.unique otherFault]

theorem property?_eq_error (complete : member.isMarked → member.HasAccessors)
    (fails : member.property? typeName = .error error) :
    ∃ name, member.attributeName? = some name ∧
      ∃ fault, member.FirstFault fault ∧ error = ⟨typeName, name, fault⟩ := by
  rw [property?, bind_eq_error_iff] at fails
  rcases fails with fails | ⟨found?, checked, fails⟩
  · obtain ⟨found?, checked⟩ := exists_attribute?_eq_ok_iff.mpr complete
    cases checked.symm.trans fails
  · cases found? with
    | none => exact absurd fails pure_ne_error
    | some found => exact compile_eq_error checked (map_eq_error_iff.mp fails)

theorem exists_property?_eq_ok_iff :
    (∃ property?, member.property? typeName = .ok property?) ↔
      (member.isMarked → member.Valid) := by
  constructor
  · rintro ⟨property?, checked⟩ marked
    rw [Member.property?, bind_eq_ok_iff] at checked
    obtain ⟨found?, discovered, checked⟩ := checked
    cases found? with
    | none =>
      rw [← isSome_of_attribute?_eq_ok discovered] at marked
      cases marked
    | some found =>
      obtain ⟨property, compiled, -⟩ := map_eq_ok_iff.mp checked
      exact (compiles_of_attribute? discovered compiled).valid
  · intro valid
    cases checked : member.property? typeName with
    | ok property? => exact ⟨property?, rfl⟩
    | error cause =>
      obtain ⟨name, named, fault, first, -⟩ :=
        property?_eq_error (fun marked => (valid marked).toHasAccessors) checked
      have marked : member.isMarked := Option.isSome_of_eq_some named
      exact absurd first.hasFault (valid marked).not_hasFault

theorem property?_eq_error_iff (complete : member.isMarked → member.HasAccessors) :
    member.property? typeName = .error error ↔
      ∃ name, member.attributeName? = some name ∧
        ∃ fault, member.FirstFault fault ∧ error = ⟨typeName, name, fault⟩ := by
  refine ⟨property?_eq_error complete, ?_⟩
  rintro ⟨name, named, fault, first, rfl⟩
  cases checked : member.property? typeName with
  | ok property? =>
    have valid := exists_property?_eq_ok_iff.mp ⟨property?, checked⟩
    exact absurd first.hasFault (valid (Option.isSome_of_eq_some named)).not_hasFault
  | error cause =>
    obtain ⟨other, otherNamed, otherFault, otherFirst, rfl⟩ := property?_eq_error complete checked
    cases named.symm.trans otherNamed
    rw [first.unique otherFirst]

end Member

/-! ## What a declaration becomes -/

/-- The canonical text of a declared default. -/
def DeclaredDefault.text? : DeclaredDefault → Option String
  | ⟨.ofKind kind, value⟩ => some (kind.write value)
  | ⟨.foreign _, _⟩ => none

/-- A marked member becomes a property under the name of its marking or else its own, with its type
for a kind, its accessors and its default. -/
inductive Member.Becomes : Member α → Property α → Prop
  | intro {memberName name : String} {kind : ValueKind} {get : α → kind.Carrier}
      {set : kind.Carrier → α → α} {marking : Marking} {value? : Option kind.Carrier}
      (named : marking = .renamed name ∨ marking = .marked ∧ name = memberName) :
      Member.Becomes
        ⟨memberName, .ofKind kind, some get, some set, marking,
          value?.map (DeclaredDefault.mk (.ofKind kind))⟩
        ⟨name, kind, get, set, value?⟩

theorem Member.Compiles.becomes {member : Member α} {property : Property α}
    (compiles : member.Compiles property) : member.Becomes property := by
  obtain ⟨named, resolved⟩ := compiles
  obtain ⟨rfl, -⟩ := resolveDefault_eq_ok_iff.mp resolved
  refine .intro ?_
  rw [attributeName?] at named
  split at named
  · cases named
  · rename_i marked
    cases named
    exact Or.inr ⟨marked, rfl⟩
  · rename_i other renamed
    cases named
    exact Or.inl renamed

/-- The default of a property is written as that of its member. -/
theorem Member.Becomes.defaultText?_eq {member : Member α} {property : Property α}
    (becomes : member.Becomes property) :
    property.defaultText? = member.default?.bind DeclaredDefault.text? := by
  cases becomes with
  | @intro _ _ _ _ _ _ value? _ => cases value? <;> rfl

/-! ## Which error is reported -/

/-- The error that a declaration is refused with. -/
inductive Declaration.Reports (declaration : Declaration α) : ConfigurationError → Prop
  /-- The first marked member without an accessor, whatever else is wrong with it or in front
  of it. -/
  | accessor {before after : List (Member α)} {member : Member α} {accessor : Accessor}
      (split : declaration.members = before ++ member :: after)
      (complete : ∀ earlier ∈ before, earlier.isMarked → earlier.HasAccessors)
      (marked : member.isMarked) (first : member.FirstFault (.missingAccessor accessor)) :
      declaration.Reports ⟨declaration.typeName, member.name, .missingAccessor accessor⟩
  /-- The first marked member that is not valid, if all of them have their accessors. -/
  | property {before after : List (Member α)} {member : Member α} {name : String}
      {fault : ConfigurationFault}
      (complete : ∀ other ∈ declaration.members, other.isMarked → other.HasAccessors)
      (split : declaration.members = before ++ member :: after)
      (valid : ∀ earlier ∈ before, earlier.isMarked → earlier.Valid)
      (named : member.attributeName? = some name) (first : member.FirstFault fault) :
      declaration.Reports ⟨declaration.typeName, name, fault⟩

namespace Declaration

variable {declaration : Declaration α} {error : ConfigurationError}

/-- Behind the accessors of all members the members are checked one by one. -/
theorem mapM_compile_eq {typeName : String} {members : List (Member α)}
    {found : List (Option (Attribute α))}
    (checked : members.mapM (Member.attribute? typeName) = .ok found) :
    (found.filterMap id).mapM (Attribute.compile typeName) =
      List.filterMap id <$> members.mapM (Member.property? typeName) := by
  induction members generalizing found with
  | nil =>
    cases checked
    rfl
  | cons member members ih =>
    rw [List.mapM_cons] at checked
    obtain ⟨first, checkedFirst, checked⟩ := bind_eq_ok_iff.mp checked
    obtain ⟨others, checkedOthers, checked⟩ := bind_eq_ok_iff.mp checked
    cases checked
    rw [List.mapM_cons]
    cases first with
    | none =>
      change (others.filterMap id).mapM _ = _
      rw [Member.property?_of_unmarked checkedFirst, ih checkedOthers]
      cases members.mapM (Member.property? typeName) <;> rfl
    | some marked =>
      change (marked :: others.filterMap id).mapM _ = _
      rw [Member.property?_of_marked checkedFirst, List.mapM_cons, ih checkedOthers]
      cases marked.compile typeName with
      | error cause => rfl
      | ok property => cases members.mapM (Member.property? typeName) <;> rfl

theorem compile_eq (declaration : Declaration α) :
    declaration.compile =
      declaration.members.mapM (Member.attribute? declaration.typeName) >>= fun _ =>
        (fun found => ⟨declaration.typeName, found.filterMap id⟩) <$>
          declaration.members.mapM (Member.property? declaration.typeName) := by
  rw [compile, attributes, bind_assoc]
  cases checked : declaration.members.mapM (Member.attribute? declaration.typeName) with
  | error cause => rfl
  | ok found =>
    change ((found.filterMap id).mapM (Attribute.compile declaration.typeName) >>=
      fun properties => .ok (Codec.mk declaration.typeName properties)) = _
    rw [mapM_compile_eq checked]
    cases declaration.members.mapM (Member.property? declaration.typeName) <;> rfl

/-- The error of a declaration is the one that is to be reported. -/
theorem compile_eq_error_iff : declaration.compile = .error error ↔ declaration.Reports error := by
  rw [compile_eq, bind_eq_error_iff]
  simp only [map_eq_error_iff, mapM_eq_error_iff]
  constructor
  · rintro (⟨before, member, after, split, passed, fails⟩ | ⟨found, checked, fails⟩)
    · obtain ⟨marked, accessor, first, rfl⟩ := Member.attribute?_eq_error_iff.mp fails
      exact .accessor split
        (fun earlier inside => Member.exists_attribute?_eq_ok_iff.mp (passed earlier inside)) marked
        first
    · obtain ⟨before, member, after, split, passed, fails⟩ := fails
      have complete (other : Member α) (inside : other ∈ declaration.members) :=
        Member.exists_attribute?_eq_ok_iff.mp
          (exists_mapM_eq_ok_iff.mp ⟨found, checked⟩ other inside)
      obtain ⟨name, named, fault, first, rfl⟩ :=
        (Member.property?_eq_error_iff (complete member (by simp [split]))).mp fails
      exact .property complete split
        (fun earlier inside => Member.exists_property?_eq_ok_iff.mp (passed earlier inside)) named
        first
  · intro reports
    cases reports with
    | @accessor before after member accessor split complete marked first =>
      refine Or.inl ⟨before, member, after, split, ?_, ?_⟩
      · exact fun earlier inside => Member.exists_attribute?_eq_ok_iff.mpr (complete earlier inside)
      · exact Member.attribute?_eq_error_iff.mpr ⟨marked, accessor, first, rfl⟩
    | @property before after member name fault complete split valid named first =>
      obtain ⟨found, checked⟩ := exists_mapM_eq_ok_iff.mpr fun other inside =>
        Member.exists_attribute?_eq_ok_iff.mpr (complete other inside)
      refine Or.inr ⟨found, checked, before, member, after, split, ?_, ?_⟩
      · exact fun earlier inside => Member.exists_property?_eq_ok_iff.mpr (valid earlier inside)
      · exact (Member.property?_eq_error_iff (complete member (by simp [split]))).mpr
          ⟨name, named, fault, first, rfl⟩

/-- A declaration compiles if its marked members are valid. -/
theorem exists_compile_eq_ok_iff :
    (∃ codec, declaration.compile = .ok codec) ↔
      ∀ member ∈ declaration.members, member.isMarked → member.Valid := by
  simp only [compile_eq, bind_eq_ok_iff, map_eq_ok_iff]
  constructor
  · rintro ⟨-, -, -, found, checked, -⟩ member inside
    exact Member.exists_property?_eq_ok_iff.mp
      (exists_mapM_eq_ok_iff.mp ⟨found, checked⟩ member inside)
  · intro valid
    obtain ⟨found, checked⟩ := exists_mapM_eq_ok_iff.mpr fun member inside =>
      Member.exists_attribute?_eq_ok_iff.mpr fun marked =>
        (valid member inside marked).toHasAccessors
    obtain ⟨properties, compiled⟩ := exists_mapM_eq_ok_iff.mpr fun member inside =>
      Member.exists_property?_eq_ok_iff.mpr (valid member inside)
    exact ⟨_, found, checked, properties, compiled, rfl⟩

/-- A declaration compiles exactly if all its marked members are valid; the properties of its codec
are then what these members become, in order, with the canonical texts of their defaults. Otherwise
it is refused with the one error that is to be reported. -/
theorem compile_result (declaration : Declaration α) :
    ((∃ codec, declaration.compile = .ok codec) ↔
        ∀ member ∈ declaration.members, member.isMarked → member.Valid) ∧
      (∀ codec, declaration.compile = .ok codec → codec.typeName = declaration.typeName ∧
        List.Forall₂
          (fun member property => member.Becomes property ∧
            property.defaultText? = member.default?.bind DeclaredDefault.text?)
          (declaration.members.filter Member.isMarked) codec.properties) ∧
        ∀ error, declaration.compile = .error error ↔ declaration.Reports error := by
  refine ⟨exists_compile_eq_ok_iff, ?_, fun error => compile_eq_error_iff⟩
  intro codec compiled
  refine ⟨?_, ?_⟩
  · rw [compile_eq, bind_eq_ok_iff] at compiled
    obtain ⟨-, -, made⟩ := compiled
    obtain ⟨found, -, rfl⟩ := map_eq_ok_iff.mp made
    rfl
  · apply (forall₂_of_compile compiled).imp
    intro member property compiles
    exact ⟨compiles.becomes, compiles.becomes.defaultText?_eq⟩

end Declaration

/-- A missing setter is reported before a faulty default in front of it. -/
example :
    let members : List (Member Nat) :=
      [⟨"Size", .foreign "u16", some toString, some fun _ size => size, .marked,
          some ⟨.unit, "()"⟩⟩,
        ⟨"Name", .ofKind (.scalar .string), some toString, none, .renamed "name", none⟩]
    let error := fun members => match Declaration.compile ⟨"Town", members⟩ with
      | .ok _ => none
      | .error error => some error
    error members = some ⟨"Town", "Name", .missingAccessor .setter⟩ ∧
      error (members.take 1) = some ⟨"Town", "Size", .nullDefault⟩ := by
  decide

end GraphMarkup.Attributes
