import GraphMarkup.Proofs.Validation.Checking
import Mathlib.Data.List.Nodup

/-!
# Validation decides validity

The places of a document are checked in order. What the checker knows at some
place is a record of the places in front of it, and it goes on exactly as long
as these could all stand in a valid document. At the end only the references
and the root are left to check.
-/

namespace GraphMarkup.Validation

open GraphMarkup.Document
open GraphMarkup.Markup
open GraphMarkup.Schema
open GraphMarkup.Text

/-- Whether a place is that of an element in no other. -/
def isRoot (place : Place) : Bool :=
  match place.node with
  | .element .. => place.ancestors.isEmpty
  | .leaf _ => false

section

variable (resolver : Resolver) (settings : Settings) (schema : Schema)

/-- The key values of the checked elements at some places. -/
def identityValuesOf (places : List Place) : List (Nat × String) :=
  (checkedElements schema places).flatMap (identityValues schema)

/-- The references of the checked elements at some places. -/
def referencesMadeBy (places : List Place) : List (IdentityReference × String) :=
  (checkedElements schema places).flatMap (referencesMade schema)

/-- What is said of a place does not depend on other places. -/
def PlaceValid (place : Place) : Prop :=
  match place.node with
  | .element head _ =>
      place.ancestors.length < settings.maxNestingDepth ∧
        (IsChecked schema place.ancestors →
          (place.ancestors = [] → head.name = ElementName.graphml) ∧
            Belongs schema place.ancestors head ∧ HasValidAttributes schema head)
  | .leaf event => LeafValid resolver settings schema place.ancestors event

/-- The places of a document up to some point could be those of a valid document. -/
structure Admissible (places : List Place) : Prop where
  each : ∀ place ∈ places, PlaceValid resolver settings schema place
  single : (places.filter isRoot).length ≤ 1
  unique : (identityValuesOf schema places).Nodup

/-- What the checker knows behind some places. -/
structure Records (places : List Place) (progress : Progress) : Prop where
  seenRoot : progress.seenRoot = places.any isRoot
  keyValues : progress.keyValues = (identityValuesOf schema places).reverse
  references : progress.references.map (fun pending => (pending.reference, pending.value)) =
    referencesMadeBy schema places

/-- Checking leads past some places to `last` if they can follow those in front, and
fails otherwise. -/
structure Leads (front places : List Place) (progress : Progress) (trace : Trace Resolved)
    (frames : List Frame) (last : Trace Resolved) : Prop where
  passes : Admissible resolver settings schema (front ++ places) →
    ∃ progress', Records schema (front ++ places) progress' ∧ progress'.frames = frames ∧
      checkEvents resolver settings schema progress trace =
        checkEvents resolver settings schema progress' last
  fails : ¬ Admissible resolver settings schema (front ++ places) →
    ∃ error, checkEvents resolver settings schema progress trace = .error error

end

section

variable {resolver : Resolver} {settings : Settings} {schema : Schema}

theorem checkedElements_append (front back : List Place) :
    checkedElements schema (front ++ back) =
      checkedElements schema front ++ checkedElements schema back :=
  List.filterMap_append

theorem identityValuesOf_append (front back : List Place) :
    identityValuesOf schema (front ++ back) =
      identityValuesOf schema front ++ identityValuesOf schema back := by
  rw [identityValuesOf, checkedElements_append, List.flatMap_append]
  rfl

theorem referencesMadeBy_append (front back : List Place) :
    referencesMadeBy schema (front ++ back) =
      referencesMadeBy schema front ++ referencesMadeBy schema back := by
  rw [referencesMadeBy, checkedElements_append, List.flatMap_append]
  rfl

/-- What stands in front of admissible places is admissible. -/
theorem Admissible.of_append {front back : List Place}
    (admissible : Admissible resolver settings schema (front ++ back)) :
    Admissible resolver settings schema front := by
  constructor
  · intro place member
    exact admissible.each place (List.mem_append_left _ member)
  · have single := admissible.single
    rw [List.filter_append, List.length_append] at single
    exact Nat.le_trans (Nat.le_add_right _ _) single
  · have unique := admissible.unique
    rw [identityValuesOf_append] at unique
    exact (List.nodup_append.mp unique).1

/-- Checking goes past nothing. -/
theorem Leads.refl {front : List Place} {progress : Progress} {trace : Trace Resolved}
    (records : Records schema front progress)
    (admissible : Admissible resolver settings schema front) :
    Leads resolver settings schema front [] progress trace progress.frames trace := by
  constructor
  · intro _
    rw [List.append_nil]
    exact ⟨progress, records, rfl, rfl⟩
  · intro excluded
    rw [List.append_nil] at excluded
    exact absurd admissible excluded

/-- Checking goes past some places and then past others. -/
theorem Leads.trans {front first second : List Place} {progress : Progress}
    {trace middle last : Trace Resolved} {frames frames' : List Frame}
    (leads : Leads resolver settings schema front first progress trace frames middle)
    (goesOn : ∀ progress', Records schema (front ++ first) progress' →
      progress'.frames = frames → Admissible resolver settings schema (front ++ first) →
        Leads resolver settings schema (front ++ first) second progress' middle frames' last) :
    Leads resolver settings schema front (first ++ second) progress trace frames' last := by
  constructor
  · intro admissible
    rw [← List.append_assoc] at admissible ⊢
    obtain ⟨progress', records, same, passed⟩ := leads.passes admissible.of_append
    obtain ⟨progress'', records', same', passed'⟩ :=
      (goesOn progress' records same admissible.of_append).passes admissible
    exact ⟨progress'', records', same', passed.trans passed'⟩
  · intro excluded
    rw [← List.append_assoc] at excluded
    by_cases admissible : Admissible resolver settings schema (front ++ first)
    · obtain ⟨progress', records, same, passed⟩ := leads.passes admissible
      obtain ⟨error, failed⟩ := (goesOn progress' records same admissible).fails excluded
      exact ⟨error, passed.trans failed⟩
    · exact leads.fails admissible

/-- An end tag closes the innermost element. -/
theorem Leads.close {front places : List Place} {progress : Progress}
    {trace rest : Trace Resolved} {frame : Frame} {frames : List Frame}
    {resolution : Resolution} {name : Bytes} {stop : Nat}
    (leads : Leads resolver settings schema front places progress trace (frame :: frames)
      (.item ⟨resolution, .closing name⟩ stop rest)) :
    Leads resolver settings schema front places progress trace frames rest := by
  constructor
  · intro admissible
    obtain ⟨progress', records, same, passed⟩ := leads.passes admissible
    refine ⟨{ progress' with frames := progress'.frames.tail },
      ⟨records.seenRoot, records.keyValues, records.references⟩, ?_, passed⟩
    exact congrArg List.tail same
  · exact leads.fails

/-- An event leads past a place if it passes exactly when the place is admissible. -/
theorem Leads.of_event {front : List Place} {place : Place} {progress behind : Progress}
    {resolved : Resolved} {start : Nat} {rest : Trace Resolved}
    (decides : ∀ result,
      checkEvent resolver settings schema progress resolved start = .ok result ↔
        Admissible resolver settings schema (front ++ [place]) ∧ behind = result)
    (records : Records schema (front ++ [place]) behind) :
    Leads resolver settings schema front [place] progress (.item resolved start rest)
      behind.frames rest := by
  constructor
  · intro admissible
    refine ⟨behind, records, rfl, ?_⟩
    rw [checkEvents, (decides behind).mpr ⟨admissible, rfl⟩]
  · intro excluded
    have fails : ∀ result,
        checkEvent resolver settings schema progress resolved start ≠ .ok result := by
      intro result passed
      exact excluded ((decides result).mp passed).1
    obtain ⟨error, failed⟩ := exists_error_of_forall_ne_ok fails
    exact ⟨error, by rw [checkEvents, failed]⟩

/-- A place can follow others if it is valid, is no second root and repeats no key
value. -/
theorem admissible_concat_iff {front : List Place} {place : Place}
    (admissible : Admissible resolver settings schema front) :
    Admissible resolver settings schema (front ++ [place]) ↔
      PlaceValid resolver settings schema place ∧
        (isRoot place → front.any isRoot = false) ∧
          (identityValuesOf schema front ++ identityValuesOf schema [place]).Nodup := by
  have none : front.any isRoot = false ↔ (front.filter isRoot).length = 0 := by
    rw [List.length_eq_zero_iff, List.filter_eq_nil_iff, List.any_eq_false]
  constructor
  · intro whole
    refine ⟨whole.each place (by simp), ?_, ?_⟩
    · intro root
      have single := whole.single
      rw [List.filter_append, List.filter_cons_of_pos root, List.length_append] at single
      exact none.mpr (Nat.le_zero.mp (Nat.le_of_succ_le_succ single))
    · rw [← identityValuesOf_append]
      exact whole.unique
  · rintro ⟨valid, first, fresh⟩
    constructor
    · intro other member
      rcases List.mem_append.mp member with known | new
      · exact admissible.each other known
      · rw [List.mem_singleton.mp new]
        exact valid
    · rw [List.filter_append, List.length_append]
      by_cases root : isRoot place
      · rw [none.mp (first root), List.filter_cons_of_pos root]
        exact Nat.le_refl 1
      · rw [List.filter_cons_of_neg root]
        exact admissible.single
    · rw [identityValuesOf_append]
      exact fresh

/-! ## Single places -/

theorem identityValuesOf_leaf (ancestors : List Element) (event : Event) :
    identityValuesOf schema [⟨ancestors, .leaf event⟩] = [] :=
  rfl

theorem checkedElement?_element (ancestors : List Element) (head : Element)
    (children : List Node) :
    checkedElement? schema ⟨ancestors, .element head children⟩ =
      if IsChecked schema ancestors then some head else none :=
  rfl

theorem checkedElements_of_isChecked {ancestors : List Element} (head : Element)
    (children : List Node) (checked : IsChecked schema ancestors) :
    checkedElements schema [⟨ancestors, .element head children⟩] = [head] := by
  rw [checkedElements, List.filterMap_cons, checkedElement?_element, if_pos checked]
  rfl

theorem checkedElements_of_not_isChecked {ancestors : List Element} (head : Element)
    (children : List Node) (unchecked : ¬ IsChecked schema ancestors) :
    checkedElements schema [⟨ancestors, .element head children⟩] = [] := by
  rw [checkedElements, List.filterMap_cons, checkedElement?_element, if_neg unchecked]
  rfl

/-- Checking leads past what is no tag if it is valid. -/
theorem leads_leaf {front : List Place} {ancestors : List Element} {event : Event}
    {progress : Progress} {start : Nat} {rest : Trace Resolved} (isLeaf : event.isLeaf)
    (wellFormed : event.WellFormed) (records : Records schema front progress)
    (admissible : Admissible resolver settings schema front)
    (frames : progress.frames = framesOf schema ancestors) :
    Leads resolver settings schema front [⟨ancestors, .leaf event⟩] progress
      (.item ⟨.unbound, event⟩ start rest) (framesOf schema ancestors) rest := by
  rw [← frames]
  apply Leads.of_event
  · intro result
    have follows : Admissible resolver settings schema (front ++ [⟨ancestors, .leaf event⟩]) ↔
        LeafValid resolver settings schema ancestors event := by
      rw [admissible_concat_iff admissible, identityValuesOf_leaf, List.append_nil]
      constructor
      · exact And.left
      · intro valid
        exact ⟨valid, (by intro root; cases root), admissible.unique⟩
    rw [checkEvent_leaf_eq_ok_iff isLeaf wellFormed frames, follows]
  · constructor
    · rw [records.seenRoot, List.any_append]
      exact (Bool.or_false _).symm
    · rw [records.keyValues, identityValuesOf_append, identityValuesOf_leaf, List.append_nil]
    · rw [records.references, referencesMadeBy_append]
      exact (List.append_nil _).symm

/-- Behind the tag of an element there is a root. -/
theorem any_isRoot_concat {front : List Place} {ancestors : List Element}
    (opened : ancestors ≠ [] → front.any isRoot) (head : Element) (children : List Node) :
    List.any (front ++ [⟨ancestors, .element head children⟩]) isRoot = true := by
  rw [List.any_append, Bool.or_eq_true]
  cases ancestors with
  | nil => exact .inr rfl
  | cons parent around => exact .inl (opened (List.cons_ne_nil parent around))

/-- A tag is recorded. -/
theorem Records.behindTag {front : List Place} {ancestors : List Element} {head : Element}
    (children : List Node) {progress : Progress} (records : Records schema front progress)
    (opened : ancestors ≠ [] → front.any isRoot) (position : Nat) :
    Records schema (front ++ [⟨ancestors, .element head children⟩])
      (behindTag schema ancestors head position progress) := by
  have seen := any_isRoot_concat opened head children
  by_cases checked : IsChecked schema ancestors
  · have only := checkedElements_of_isChecked head children checked
    rw [Validation.behindTag, if_pos checked]
    constructor
    · exact seen.symm
    · rw [identityValuesOf_append, List.reverse_append, ← records.keyValues, identityValuesOf,
        only, List.flatMap_singleton]
      rfl
    · rw [referencesMadeBy_append, ← records.references, referencesMadeBy, only,
        List.flatMap_singleton, withElement, List.map_append, map_referencesOf]
  · have nothing := checkedElements_of_not_isChecked head children checked
    rw [Validation.behindTag, if_neg checked]
    constructor
    · -- An element that is not checked stands in another one.
      have inner : ancestors ≠ [] := by
        rintro rfl
        exact checked isChecked_nil
      rw [records.seenRoot, seen, opened inner]
    · rw [identityValuesOf_append, identityValuesOf, identityValuesOf, nothing,
        List.flatMap_nil, List.append_nil, records.keyValues]
      rfl
    · rw [referencesMadeBy_append, referencesMadeBy, referencesMadeBy, nothing,
        List.flatMap_nil, List.append_nil, records.references]
      rfl

/-- A tag can follow admissible places exactly if the validator lets it. -/
theorem admissible_tag_iff {front : List Place} {ancestors : List Element} {head : Element}
    (children : List Node) {progress : Progress} (records : Records schema front progress)
    (admissible : Admissible resolver settings schema front) :
    Admissible resolver settings schema (front ++ [⟨ancestors, .element head children⟩]) ↔
      ancestors.length < settings.maxNestingDepth ∧
        (IsChecked schema ancestors →
          (ancestors = [] → progress.seenRoot = false ∧ head.name = ElementName.graphml) ∧
            Belongs schema ancestors head ∧ HasValidAttributes schema head ∧
              ((identityValues schema head).reverse ++ progress.keyValues).Nodup) := by
  rw [admissible_concat_iff admissible, PlaceValid, isRoot, List.isEmpty_iff,
    ← records.seenRoot, and_assoc]
  refine and_congr_right fun _ => ?_
  by_cases checked : IsChecked schema ancestors
  · rw [identityValuesOf, identityValuesOf, checkedElements_of_isChecked head children checked,
      List.flatMap_singleton, records.keyValues, ← List.reverse_append, List.nodup_reverse,
      forall_prop_of_true checked, forall_prop_of_true checked]
    constructor
    · rintro ⟨⟨named, belongs, valid⟩, first, fresh⟩
      exact ⟨fun top => ⟨first top, named top⟩, belongs, valid, fresh⟩
    · rintro ⟨top, belongs, valid, fresh⟩
      exact ⟨⟨fun outer => (top outer).2, belongs, valid⟩, fun outer => (top outer).1, fresh⟩
  · refine iff_of_true ⟨fun holds => absurd holds checked, ?_, ?_⟩
      fun holds => absurd holds checked
    · rintro rfl
      exact absurd isChecked_nil checked
    · have nothing : identityValuesOf schema [⟨ancestors, .element head children⟩] = [] := by
        rw [identityValuesOf, checkedElements_of_not_isChecked head children checked,
          List.flatMap_nil]
      rw [nothing, List.append_nil]
      exact admissible.unique

/-- Checking leads into an element if its tag is valid. -/
theorem leads_tag {front : List Place} {ancestors : List Element} {head : Element}
    (children : List Node) {progress : Progress} {start : Nat} {content : Trace Resolved}
    (isEmpty : Bool) (wellFormed : head.WellFormed) (records : Records schema front progress)
    (admissible : Admissible resolver settings schema front)
    (frames : progress.frames = framesOf schema ancestors)
    (opened : ancestors ≠ [] → front.any isRoot) :
    Leads resolver settings schema front [⟨ancestors, .element head children⟩] progress
      (.item ⟨head.resolution, tagEvent head.tag isEmpty⟩ start content)
      (framesOf schema (if isEmpty then ancestors else head :: ancestors)) content := by
  have distinct : progress.keyValues.Nodup := by
    rw [records.keyValues, List.nodup_reverse]
    exact admissible.unique
  have recorded : Records schema (front ++ [⟨ancestors, .element head children⟩])
      (behindTag schema ancestors head start progress) :=
    records.behindTag children opened start
  have same : (behindTag schema ancestors head start progress).frames =
      framesOf schema ancestors := by
    rw [Validation.behindTag]
    split
    · exact frames
    · exact frames
  have behind : framesOf schema (if isEmpty then ancestors else head :: ancestors) =
      (pushFrame isEmpty (frameOf schema ancestors head)
        (behindTag schema ancestors head start progress)).frames := by
    cases isEmpty with
    | true => exact same.symm
    | false => exact congrArg (frameOf schema ancestors head :: ·) same.symm
  rw [behind]
  apply Leads.of_event
  · intro result
    rw [admissible_tag_iff children records admissible, and_assoc,
      ← startElement_of_wellFormed wellFormed frames distinct]
    cases isEmpty with
    | true => rfl
    | false => rfl
  · cases isEmpty with
    | true => exact recorded
    | false => exact ⟨recorded.seenRoot, recorded.keyValues, recorded.references⟩

/-! ## Whole documents -/

/-- Checking leads past the places of a forest, whatever stands in front of it. -/
theorem leads_of_reads {trace last : Trace Resolved} {nodes : List Node}
    (reads : Reads trace nodes last) (wellFormed : Forest.WellFormed nodes)
    {front : List Place} {ancestors : List Element} {progress : Progress}
    (records : Records schema front progress)
    (admissible : Admissible resolver settings schema front)
    (frames : progress.frames = framesOf schema ancestors)
    (opened : ancestors ≠ [] → front.any isRoot) :
    Leads resolver settings schema front (Forest.places ancestors nodes) progress trace
      (framesOf schema ancestors) last := by
  revert front ancestors progress
  refine reads_induction
    (motive := fun trace nodes last => Forest.WellFormed nodes →
      ∀ {front ancestors progress}, Records schema front progress →
        Admissible resolver settings schema front →
        progress.frames = framesOf schema ancestors →
        (ancestors ≠ [] → front.any isRoot) →
        Leads resolver settings schema front (Forest.places ancestors nodes) progress trace
          (framesOf schema ancestors) last)
    ?nil ?leaf ?element reads wellFormed
  case nil =>
    intro trace _ front ancestors progress records admissible frames _
    rw [← frames]
    exact .refl records admissible
  case leaf =>
    intro event start rest last nodes isLeaf ih wellFormed front ancestors progress records
      admissible frames opened
    apply Leads.trans (leads_leaf isLeaf wellFormed.1 records admissible frames)
    intro progress' records' frames' admissible'
    apply ih wellFormed.2 records' admissible' frames'
    intro inner
    rw [List.any_append, opened inner]
    rfl
  case element =>
    intro head isEmpty start content rest last children nodes inside _ ih wellFormed front
      ancestors progress records admissible frames opened
    have parts : Forest.places ancestors (.element head children :: nodes) =
        [⟨ancestors, .element head children⟩] ++
          (Forest.places (head :: ancestors) children ++ Forest.places ancestors nodes) := rfl
    rw [parts]
    apply (leads_tag children isEmpty wellFormed.1.1 records admissible frames opened).trans
    intro progress₁ records₁ frames₁ admissible₁
    have opened₁ := any_isRoot_concat opened head children
    have within : Leads resolver settings schema
        (front ++ [⟨ancestors, .element head children⟩])
        (Forest.places (head :: ancestors) children) progress₁ content
        (framesOf schema ancestors) rest := by
      cases inside with
      | empty =>
        rw [if_pos rfl] at frames₁
        rw [← frames₁]
        exact .refl records₁ admissible₁
      | content holds =>
        exact .close (holds.2 wellFormed.1.2 records₁ admissible₁ frames₁ fun _ => opened₁)
    apply within.trans
    intro progress₂ records₂ frames₂ admissible₂
    apply ih wellFormed.2 records₂ admissible₂ frames₂
    intro _
    rw [List.any_append, opened₁]
    rfl

/-- References pass if the keys that the schema has for them have their values. -/
theorem checkReferences_eq_ok_iff {keyValues : List (Nat × String)}
    {pending : List PendingReference} :
    checkReferences schema keyValues pending = .ok () ↔
      ∀ made ∈ pending.map (fun pending => (pending.reference, pending.value)),
        ∀ entry ∈ schema.keys.zipIdx.find? (·.1.name = made.1.refer),
          (entry.2, made.2) ∈ keyValues := by
  induction pending with
  | nil => simp [checkReferences]
  | cons first pending ih =>
    rw [List.map_cons, List.forall_mem_cons, ← ih, checkReferences]
    cases schema.keys.zipIdx.find? (·.1.name = first.reference.refer) with
    | none => simp
    | some entry =>
      rcases entry with ⟨key, index⟩
      by_cases known : (index, first.value) ∈ keyValues
      · simp [known]
      · simp [known]

/-- All events of a trace pass, there is a root among them, and the references are to known
values. -/
def Accepts (resolver : Resolver) (settings : Settings) (schema : Schema)
    (trace : Trace Resolved) : Prop :=
  ∃ progress, checkEvents resolver settings schema {} trace = .ok progress ∧
    progress.seenRoot ∧ checkReferences schema progress.keyValues progress.references = .ok ()

/-- Validation passes the documents whose events pass. -/
theorem validate_eq_ok_iff_accepts {document : Bytes} :
    validate resolver settings schema document = .ok () ↔
      Accepts resolver settings schema (Markup.read document) := by
  rw [validate, bind_eq_ok_iff]
  apply exists_congr
  intro progress
  apply and_congr_right
  intro _
  by_cases rooted : progress.seenRoot
  · rw [if_pos rooted, and_iff_right rooted]
  · rw [if_neg rooted, throw_eq_ok_iff, false_iff]
    exact fun holds => rooted holds.1

/-- The events of a forest pass if all of its places are admissible, one of them is that of a
root, and the references are to known values. -/
theorem accepts_iff_admissible {trace : Trace Resolved} {nodes : List Node}
    (reads : Reads trace nodes .ended) (wellFormed : Forest.WellFormed nodes) :
    Accepts resolver settings schema trace ↔
      Admissible resolver settings schema (Forest.places [] nodes) ∧
        (Forest.places [] nodes).any isRoot ∧
          ∀ made ∈ referencesMadeBy schema (Forest.places [] nodes),
            ∀ entry ∈ schema.keys.zipIdx.find? (·.1.name = made.1.refer),
              (entry.2, made.2) ∈ identityValuesOf schema (Forest.places [] nodes) := by
  have records : Records schema [] {} := ⟨rfl, rfl, rfl⟩
  have nothing : Admissible resolver settings schema [] := by
    refine ⟨?_, Nat.zero_le 1, List.nodup_nil⟩
    intro place member
    cases member
  have leads : Leads resolver settings schema [] (Forest.places [] nodes) {} trace
      (framesOf schema []) .ended :=
    leads_of_reads reads wellFormed records nothing rfl fun inner => absurd rfl inner
  rw [Accepts]
  by_cases admissible : Admissible resolver settings schema (Forest.places [] nodes)
  · obtain ⟨progress, records, _, passed⟩ := leads.passes admissible
    rw [List.nil_append] at records
    have known : checkEvents resolver settings schema {} trace = .ok progress :=
      passed
    simp only [known, Except.ok.injEq, exists_eq_left', and_iff_right admissible,
      records.seenRoot, checkReferences_eq_ok_iff, records.references, records.keyValues,
      List.mem_reverse]
  · obtain ⟨error, failed⟩ := leads.fails admissible
    simp [failed, admissible]

end

end GraphMarkup.Validation
