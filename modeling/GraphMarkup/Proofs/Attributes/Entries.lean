import GraphMarkup.Proofs.Attributes.Compilation
import Mathlib.Data.List.Induction

/-!
# Data entries

The data of an instance are entries, a key and a text each, that are read one after the
other onto an instance which holds the defaults. An entry sets the first property that has
its key for a name and changes nothing else. So a property holds what the last of its
entries says, else its default, else what the instance came with; and of two properties
with one name the later is out of reach.
-/

namespace GraphMarkup.Attributes

open GraphMarkup.Value

variable {α : Type}

/-- The text of the last entry with a key. -/
def latest? (entries : List (String × String)) (key : String) : Option String :=
  entries.reverse.lookup key

theorem latest?_concat (entries : List (String × String)) (entry : String × String) (key : String) :
    latest? (entries ++ [entry]) key =
      if key = entry.1 then some entry.2 else latest? entries key := by
  rw [latest?, List.reverse_append, List.reverse_singleton, List.singleton_append, List.lookup_cons]
  by_cases same : key = entry.1
  · rw [if_pos same, same, beq_self_eq_true]
  · rw [if_neg same, beq_eq_false_iff_ne.mpr same, latest?]

namespace Codec

/-- Set attributes from their texts, in order. -/
def readEntries (codec : Codec α) (entries : List (String × String)) (owner : α) :
    Except DataError α :=
  entries.foldlM (fun owner entry => codec.read entry.1 entry.2 owner) owner

/-- Set attributes from their texts in place, in order, up to the first that cannot be set. -/
def readInPlace (codec : Codec α) : List (String × String) → α → Except DataError Unit × α
  | [], owner => (.ok (), owner)
  | entry :: entries, owner =>
      match codec.read entry.1 entry.2 owner with
      | .ok changed => codec.readInPlace entries changed
      | .error cause => (.error cause, owner)

variable {codec : Codec α} {owner result : α} {entries : List (String × String)}

/-! ## What is not changed -/

section

variable (Same : α → α → Prop) (equivalence : Equivalence Same)

include equivalence

/-- What no property changes, no default changes. -/
theorem same_foldl_applyDefault {properties : List (Property α)}
    (keeps : ∀ property ∈ properties, ∀ value owner, Same (property.set value owner) owner)
    (owner : α) :
    Same (properties.foldl (fun current property => property.applyDefault current) owner)
      owner := by
  induction properties generalizing owner with
  | nil => exact equivalence.refl owner
  | cons property properties ih =>
    obtain ⟨first, others⟩ := List.forall_mem_cons.mp keeps
    rw [List.foldl_cons]
    apply equivalence.trans (ih others _)
    rw [Property.applyDefault]
    split
    · exact equivalence.refl owner
    · exact first _ owner

/-- What no entry changes, a sequence of entries does not change. -/
theorem same_of_readEntries
    (keeps : ∀ entry ∈ entries, ∀ owner result,
      codec.read entry.1 entry.2 owner = .ok result → Same result owner)
    (read : codec.readEntries entries owner = .ok result) : Same result owner := by
  induction entries generalizing owner with
  | nil =>
    cases read
    exact equivalence.refl _
  | cons entry entries ih =>
    obtain ⟨first, others⟩ := List.forall_mem_cons.mp keeps
    obtain ⟨middle, readFirst, readOthers⟩ := bind_eq_ok_iff.mp read
    exact equivalence.trans (ih others readOthers) (first owner middle readFirst)

end

/-! ## Single entries -/

/-- The first property of a name is the one that is found under it. -/
theorem find?_first {before after : List (Property α)} {property : Property α}
    (split : codec.properties = before ++ property :: after)
    (first : ∀ other ∈ before, other.name ≠ property.name) :
    codec.properties.find? (·.name = property.name) = some property := by
  have absent : before.find? (·.name = property.name) = none :=
    List.find?_eq_none.mpr fun other member => by simpa using first other member
  rw [split, List.find?_append, absent, Option.none_or]
  exact List.find?_cons_of_pos (decide_eq_true rfl)

/-- An entry sets the first property that has its key for a name. -/
theorem exists_of_read {key text : String} (read : codec.read key text owner = .ok result) :
    ∃ property, codec.properties.find? (·.name = key) = some property ∧
      ∃ value, property.kind.read text = .ok value ∧ property.set value owner = result := by
  rw [Codec.read] at read
  split at read
  · rename_i property found
    rw [Property.read] at read
    split at read
    · rename_i value parsed
      cases read
      exact ⟨property, found, value, parsed, rfl⟩
    · cases read
  · cases read

/-- Setting any other property does not change a property. -/
theorem Independent.leavesAlone (independent : codec.Independent) {before after : List (Property α)}
    {property : Property α} (split : codec.properties = before ++ property :: after) :
    ∀ other, other ∈ before ∨ other ∈ after → other.LeavesAlone property.get := by
  have apart := independent.apart
  rw [split, List.pairwise_append, List.pairwise_cons] at apart
  obtain ⟨-, ⟨behind, -⟩, across⟩ := apart
  rintro other (inBefore | inAfter)
  · exact (across other inBefore property List.mem_cons_self).1
  · exact (behind other inAfter).2

/-- An entry does not change a property with another name or behind one of its name. -/
theorem get_of_read_other (independent : codec.Independent) {before after : List (Property α)}
    {property : Property α} (split : codec.properties = before ++ property :: after)
    {key text : String}
    (unreached : key = property.name → ∃ other ∈ before, other.name = property.name)
    (read : codec.read key text owner = .ok result) : property.get result = property.get owner := by
  obtain ⟨found, first, value, -, rfl⟩ := exists_of_read read
  apply independent.leavesAlone split found
  rw [split, List.find?_append] at first
  cases inBefore : before.find? (·.name = key) with
  | some other =>
    rw [inBefore] at first
    cases first
    exact Or.inl (List.mem_of_find?_eq_some inBefore)
  | none =>
    have different : property.name ≠ key := by
      intro same
      obtain ⟨other, member, named⟩ := unreached same.symm
      apply List.find?_eq_none.mp inBefore other member
      exact decide_eq_true (named.trans same)
    rw [inBefore, Option.none_or, List.find?_cons_of_neg (by simpa using different)] at first
    exact Or.inr (List.mem_of_find?_eq_some first)

/-- An entry sets the first property that has its key for a name to the value that its text is
read as. -/
theorem read_get_of_read (independent : codec.Independent) {before after : List (Property α)}
    {property : Property α} (split : codec.properties = before ++ property :: after)
    (first : ∀ other ∈ before, other.name ≠ property.name) {text : String}
    (read : codec.read property.name text owner = .ok result) :
    property.kind.read text = .ok (property.get result) := by
  obtain ⟨found, isFirst, value, parsed, rfl⟩ := exists_of_read read
  rw [find?_first split first] at isFirst
  cases isFirst
  have inside : property ∈ codec.properties := split ▸ List.mem_append_right _ List.mem_cons_self
  rw [independent.get_set property inside, parsed]

/-! ## Sequences of entries -/

section

variable (independent : codec.Independent) {before after : List (Property α)}
  {property : Property α} (split : codec.properties = before ++ property :: after)

include independent split

/-- Once all defaults are applied, a property holds its default, or what it held before if it has
none. -/
theorem get_applyDefaults (owner : α) :
    property.get (codec.applyDefaults owner) = property.default?.getD (property.get owner) := by
  have alone := independent.leavesAlone split
  have same {properties : List (Property α)}
      (others : ∀ other ∈ properties, other ∈ before ∨ other ∈ after) (owner : α) :
      property.get (properties.foldl (fun current other => other.applyDefault current) owner) =
        property.get owner :=
    same_foldl_applyDefault (property.get · = property.get ·) (eq_equivalence.comap property.get)
      (fun other member => alone other (others other member)) owner
  rw [applyDefaults, split, List.foldl_append, List.foldl_cons, same fun _ => Or.inr,
    Property.applyDefault]
  cases property.default? with
  | none => exact same (fun _ => Or.inl) owner
  | some value =>
    exact independent.get_set property
      (split ▸ List.mem_append_right _ List.mem_cons_self) value _

/-- Entries do not change a property behind one of its name. -/
theorem get_of_readEntries_repeated (repeated : ∃ other ∈ before, other.name = property.name)
    (read : codec.readEntries entries owner = .ok result) :
    property.get result = property.get owner :=
  same_of_readEntries (property.get · = property.get ·) (eq_equivalence.comap property.get)
    (fun _ _ _ _ readEntry => get_of_read_other independent split (fun _ => repeated) readEntry)
    read

/-- After some entries the first property of a name holds what the last of them with its name
says, or what it held before if there is none. -/
theorem get_of_readEntries_first (first : ∀ other ∈ before, other.name ≠ property.name)
    (read : codec.readEntries entries owner = .ok result) :
    match latest? entries property.name with
    | some text => property.kind.read text = .ok (property.get result)
    | none => property.get result = property.get owner := by
  induction entries using List.reverseRecOn generalizing result with
  | nil =>
    cases read
    rfl
  | append_singleton entries entry ih =>
    rw [readEntries, List.foldlM_append] at read
    obtain ⟨middle, readFront, readLast⟩ := bind_eq_ok_iff.mp read
    simp only [List.foldlM_cons, List.foldlM_nil, bind_pure] at readLast
    rw [latest?_concat]
    by_cases named : property.name = entry.1
    · rw [if_pos named]
      rw [← named] at readLast
      exact read_get_of_read independent split first readLast
    · rw [if_neg named, get_of_read_other independent split (fun same => absurd same.symm named)
        readLast]
      exact ih readFront

end

/-- Neither defaults nor entries change a member that is not marked. -/
theorem get_of_readEntries_unmarked {declaration : Declaration α}
    (independent : declaration.Independent) (compiled : declaration.compile = .ok codec)
    {member : Member α} (isMember : member ∈ declaration.members)
    (unmarked : member.isMarked = false) {get : α → member.type.Carrier}
    (given : member.get? = some get)
    (read : codec.readEntries entries (codec.applyDefaults owner) = .ok result) :
    get result = get owner := by
  have alone := independent.leavesAlone_unmarked compiled isMember unmarked given
  have byEntries : get result = get (codec.applyDefaults owner) := by
    refine same_of_readEntries (get · = get ·) (eq_equivalence.comap get) ?_ read
    intro entry _ owner result readEntry
    obtain ⟨property, first, value, -, rfl⟩ := exists_of_read readEntry
    exact alone property (List.mem_of_find?_eq_some first) value owner
  rw [byEntries]
  exact same_foldl_applyDefault (get · = get ·) (eq_equivalence.comap get) alone owner

/-! ## What an instance holds in the end -/

/-- What an instance holds that came as `owner` and went through the defaults and then through
some entries. -/
structure HoldsAfter (declaration : Declaration α) (codec : Codec α)
    (entries : List (String × String)) (owner result : α) : Prop where
  /-- The first property of a name holds what the last entry with that name says. -/
  latest : ∀ before property after, codec.properties = before ++ property :: after →
    (∀ other ∈ before, other.name ≠ property.name) →
      ∀ text, latest? entries property.name = some text →
        property.kind.read text = .ok (property.get result)
  /-- Without such an entry it holds its default, without a default what it came with. -/
  initial : ∀ before property after, codec.properties = before ++ property :: after →
    (∀ other ∈ before, other.name ≠ property.name) → latest? entries property.name = none →
      property.get result = property.default?.getD (property.get owner)
  /-- A later property of a name is out of reach of all entries. -/
  repeated : ∀ before property after, codec.properties = before ++ property :: after →
    (∃ other ∈ before, other.name = property.name) →
      property.get result = property.default?.getD (property.get owner)
  /-- A member that is not marked holds what it came with. -/
  unmarked : ∀ member ∈ declaration.members, member.isMarked = false →
    ∀ get, member.get? = some get → get result = get owner

/-- What an instance holds after entries that all can be read. -/
theorem holdsAfter_of_readEntries {declaration : Declaration α}
    (independent : declaration.Independent) (compiled : declaration.compile = .ok codec)
    (read : codec.readEntries entries (codec.applyDefaults owner) = .ok result) :
    HoldsAfter declaration codec entries owner result where
  latest := by
    intro before property after split first text last
    have holds := get_of_readEntries_first (independent_of_compile independent compiled) split first
      read
    rw [last] at holds
    exact holds
  initial := by
    intro before property after split first absent
    have holds := get_of_readEntries_first (independent_of_compile independent compiled) split first
      read
    rw [absent] at holds
    rw [holds, get_applyDefaults (independent_of_compile independent compiled) split]
  repeated := by
    intro before property after split repeated
    have independent := independent_of_compile independent compiled
    rw [get_of_readEntries_repeated independent split repeated read,
      get_applyDefaults independent split]
  unmarked := by
    intro member isMember unmarked get given
    exact get_of_readEntries_unmarked independent compiled isMember unmarked given read

/-! ## Reading in place -/

/-- Reading in place gives what the entries give if all of them can be read. If one cannot, it ends
there, with the instance as the entries in front of that one left it. -/
theorem readInPlace_eq_ok_or_error (codec : Codec α) (entries : List (String × String))
    (owner : α) :
    match codec.readInPlace entries owner with
    | (.ok (), result) => codec.readEntries entries owner = .ok result
    | (.error cause, result) => ∃ front entry back, entries = front ++ entry :: back ∧
        codec.readEntries front owner = .ok result ∧
          codec.read entry.1 entry.2 result = .error cause := by
  induction entries generalizing owner with
  | nil => rfl
  | cons entry entries ih =>
    rw [readInPlace]
    cases read : codec.read entry.1 entry.2 owner with
    | error cause => exact ⟨[], entry, entries, rfl, rfl, read⟩
    | ok changed =>
      have goesOn (entries : List (String × String)) :
          codec.readEntries (entry :: entries) owner = codec.readEntries entries changed := by
        rw [readEntries, List.foldlM_cons, read]
        rfl
      have others := ih changed
      dsimp only
      split at others
      · rw [goesOn]
        exact others
      · obtain ⟨front, failing, back, rfl, readFront, fails⟩ := others
        refine ⟨entry :: front, failing, back, rfl, ?_, fails⟩
        rw [goesOn]
        exact readFront

/-- Once the defaults are applied, an instance takes entries one after the other. If all can be
read, every property that is the first of its name holds what the last entry with that name says,
else its default, else what the instance came with; a later property of a name and a member that is
not marked are not touched by any entry. If an entry cannot be read, all this is so for the entries
in front of it. -/
theorem readInPlace_holdsAfter {declaration : Declaration α} {codec : Codec α}
    (compiled : declaration.compile = .ok codec) (independent : declaration.Independent)
    (entries : List (String × String)) (owner : α) :
    match codec.readInPlace entries (codec.applyDefaults owner) with
    | (.ok (), result) => HoldsAfter declaration codec entries owner result
    | (.error cause, result) => ∃ front entry back, entries = front ++ entry :: back ∧
        codec.readEntries front (codec.applyDefaults owner) = .ok result ∧
          codec.read entry.1 entry.2 result = .error cause ∧
            HoldsAfter declaration codec front owner result := by
  have ends := readInPlace_eq_ok_or_error codec entries (codec.applyDefaults owner)
  split at ends
  · exact holdsAfter_of_readEntries independent compiled ends
  · obtain ⟨front, entry, back, split, readFront, fails⟩ := ends
    exact ⟨front, entry, back, split, readFront, fails,
      holdsAfter_of_readEntries independent compiled readFront⟩

end Codec

/-- Four switches: two attributes of one name, one without a default, and one that is none. -/
structure Switches where
  main : Bool
  shadowed : Bool
  spare : Bool
  hidden : Bool
deriving DecidableEq

namespace Switches

/-- The member for a switch. -/
def member (marking : Marking) (default? : Option Bool) (get : Switches → Bool)
    (set : Bool → Switches → Switches) : Member Switches where
  name := "Switch"
  type := .ofKind (.scalar .boolean)
  get? := some get
  set? := some set
  marking := marking
  default? := default?.map fun value => ⟨.ofKind (.scalar .boolean), value⟩

/-- What the switches say about themselves. -/
def declaration : Declaration Switches where
  typeName := "Switches"
  members :=
    [member .marked (some true) main fun value owner => { owner with main := value },
      member (.renamed "Switch") (some true) shadowed fun value owner =>
        { owner with shadowed := value },
      member (.renamed "Spare") none spare fun value owner => { owner with spare := value },
      member .plain none hidden fun value owner => { owner with hidden := value }]

/-- The attributes of the switches. -/
def codec : Codec Switches where
  typeName := "Switches"
  properties :=
    [⟨"Switch", .scalar .boolean, main, fun value owner => { owner with main := value }, some true⟩,
      ⟨"Switch", .scalar .boolean, shadowed,
        fun value owner => { owner with shadowed := value }, some true⟩,
      ⟨"Spare", .scalar .boolean, spare, fun value owner => { owner with spare := value }, none⟩]

theorem independent : declaration.Independent where
  get_set := by
    simp [declaration, member]
  apart := by
    simp [declaration, member, Member.LeavesAlone]

/-- Three entries are read, the fourth cannot be. -/
theorem readInPlace_holdsAfter_three :
    declaration.compile = .ok codec ∧ declaration.Independent ∧
      let entries := [("Switch", "1"), ("Spare", "true"), ("Switch", "0"), ("Spare", "maybe"),
        ("Switch", "1")]
      let owner : Switches := ⟨false, false, false, false⟩
      let result : Switches := ⟨false, true, true, false⟩
      codec.readInPlace entries (codec.applyDefaults owner) =
          (.error (.value "Spare" (.boolean "maybe")), result) ∧
        ∃ front entry back, entries = front ++ entry :: back ∧
          codec.readEntries front (codec.applyDefaults owner) = .ok result ∧
            codec.read entry.1 entry.2 result = .error (.value "Spare" (.boolean "maybe")) ∧
              Codec.HoldsAfter declaration codec front owner result := by
  have compiled : declaration.compile = .ok codec := rfl
  refine ⟨compiled, independent, ?_⟩
  intro entries owner result
  have run : codec.readInPlace entries (codec.applyDefaults owner) =
      (.error (.value "Spare" (.boolean "maybe")), result) := by
    decide
  have holds := Codec.readInPlace_holdsAfter compiled independent entries owner
  rw [run] at holds
  exact ⟨run, holds⟩

end Switches

end GraphMarkup.Attributes
