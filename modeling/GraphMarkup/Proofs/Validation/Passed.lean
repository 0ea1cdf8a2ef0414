import GraphMarkup.Proofs.Validation.Clauses

/-!
# What is known of documents that pass

A document that passes validation may still have faults where nothing is checked, and its
last elements may be open. So what is known of it is stated on its tags: those that are
checked are as the schema demands, and every reference that they make is to a value that
one of them has for the key.
-/

namespace GraphMarkup.Markup

/-- An element in a document and the elements around it, the innermost first. -/
structure ElementPlace where
  ancestors : List Element
  head : Element
deriving DecidableEq

/-- The elements that begin in a trace, in order, inside elements that are open in front of it. -/
def elementPlaces (ancestors : List Element) : Trace Resolved → List ElementPlace
  | .ended => []
  | .failed .. => []
  | .item resolved _ rest =>
      match resolved.event with
      | .opening tag =>
          ⟨ancestors, ⟨tag, resolved.resolution⟩⟩ ::
            elementPlaces (⟨tag, resolved.resolution⟩ :: ancestors) rest
      | .empty tag => ⟨ancestors, ⟨tag, resolved.resolution⟩⟩ :: elementPlaces ancestors rest
      | .closing _ => elementPlaces ancestors.tail rest
      | _ => elementPlaces ancestors rest

theorem elementPlaces_leaf {ancestors : List Element} {resolved : Resolved} {start : Nat}
    {rest : Trace Resolved} (isLeaf : resolved.event.isLeaf) :
    elementPlaces ancestors (.item resolved start rest) = elementPlaces ancestors rest := by
  rw [elementPlaces]
  cases event : resolved.event <;> simp_all [Event.isLeaf]

theorem elementPlaces_tagEvent {ancestors : List Element} {resolved : Resolved} {start : Nat}
    {rest : Trace Resolved} {tag : Tag} {isEmpty : Bool}
    (opening : resolved.event = tagEvent tag isEmpty) :
    elementPlaces ancestors (.item resolved start rest) =
      ⟨ancestors, ⟨tag, resolved.resolution⟩⟩ ::
        elementPlaces (if isEmpty then ancestors else ⟨tag, resolved.resolution⟩ :: ancestors)
          rest := by
  rw [elementPlaces, opening]
  cases isEmpty <;> rfl

end GraphMarkup.Markup

namespace GraphMarkup.Validation

open GraphMarkup.Document
open GraphMarkup.Markup
open GraphMarkup.Schema
open GraphMarkup.Text

section

variable (schema : Schema)

/-- A checked element is as the schema demands. -/
structure Conforms (place : ElementPlace) : Prop where
  root : place.ancestors = [] → place.head.name = ElementName.graphml
  belongs : Belongs schema place.ancestors place.head
  readable : place.head.HasReadableAttributes
  valid : HasValidAttributes schema place.head

/-- The elements at some places that are checked. -/
def checkedHeads (places : List ElementPlace) : List Element :=
  (places.filter fun place => IsChecked schema place.ancestors).map ElementPlace.head

/-- Elements passed, and what the checker knew in front of them became what it knows behind. -/
structure Passed (places : List ElementPlace) (progress last : Progress) : Prop where
  conform : ∀ place ∈ places, IsChecked schema place.ancestors → Conforms schema place
  keyValues : last.keyValues =
    ((checkedHeads schema places).flatMap (identityValues schema)).reverse ++ progress.keyValues
  references : last.references.map (fun pending => (pending.reference, pending.value)) =
    progress.references.map (fun pending => (pending.reference, pending.value)) ++
      (checkedHeads schema places).flatMap (referencesMade schema)

end

variable {schema : Schema} {resolver : Resolver} {settings : Settings}

theorem mem_checkedHeads_iff {places : List ElementPlace} {head : Element} :
    head ∈ checkedHeads schema places ↔
      ∃ place ∈ places, IsChecked schema place.ancestors ∧ place.head = head := by
  simp [checkedHeads, and_assoc]

theorem checkedHeads_append (front behind : List ElementPlace) :
    checkedHeads schema (front ++ behind) =
      checkedHeads schema front ++ checkedHeads schema behind := by
  rw [checkedHeads, List.filter_append, List.map_append]
  rfl

namespace Passed

/-- Nothing but the frames and the root has changed. -/
theorem nil {progress last : Progress} (keyValues : last.keyValues = progress.keyValues)
    (references : last.references = progress.references) : Passed schema [] progress last where
  conform place member := by
    cases member
  keyValues := keyValues
  references := by
    rw [references]
    exact (List.append_nil _).symm

theorem trans {front behind : List ElementPlace} {first second third : Progress}
    (left : Passed schema front first second) (right : Passed schema behind second third) :
    Passed schema (front ++ behind) first third where
  conform := List.forall_mem_append.mpr ⟨left.conform, right.conform⟩
  keyValues := by
    rw [right.keyValues, left.keyValues, checkedHeads_append, List.flatMap_append,
      List.reverse_append, List.append_assoc]
  references := by
    rw [right.references, left.references, checkedHeads_append, List.flatMap_append,
      List.append_assoc]

/-- An element behind whose tag the checker goes on has passed. -/
theorem tag {ancestors : List Element} (head : Element) (isEmpty : Bool) {position : Nat}
    {progress last : Progress} (frames : progress.frames = framesOf schema ancestors)
    (distinct : progress.keyValues.Nodup)
    (passed : startElement schema settings head.resolution head.tag isEmpty position progress =
      .ok last) :
    Passed schema [⟨ancestors, head⟩] progress last ∧ last.keyValues.Nodup ∧
      last.frames = framesOf schema (if isEmpty then ancestors else head :: ancestors) := by
  obtain ⟨-, -, checks, rfl⟩ := (startElement_eq_ok_iff frames distinct).mp passed
  have keyValues : (pushFrame isEmpty (frameOf schema ancestors head)
      (behindTag schema ancestors head position progress)).keyValues =
        (behindTag schema ancestors head position progress).keyValues := by
    cases isEmpty <;> rfl
  have references : (pushFrame isEmpty (frameOf schema ancestors head)
      (behindTag schema ancestors head position progress)).references =
        (behindTag schema ancestors head position progress).references := by
    cases isEmpty <;> rfl
  have same : (behindTag schema ancestors head position progress).frames =
      framesOf schema ancestors := by
    rw [behindTag]
    split <;> exact frames
  refine ⟨?passed, ?distinct, ?frames⟩
  case frames =>
    cases isEmpty with
    | true => exact same
    | false => exact congrArg (frameOf schema ancestors head :: ·) same
  case distinct =>
    rw [keyValues, behindTag]
    split
    · exact (checks ‹_›).2.2.2.2
    · exact distinct
  case passed =>
    by_cases checked : IsChecked schema ancestors
    · obtain ⟨first, belongs, readable, valid, -⟩ := checks checked
      have only : checkedHeads schema [⟨ancestors, head⟩] = [head] := by
        simp [checkedHeads, checked]
      constructor
      · intro place member _
        obtain rfl := List.mem_singleton.mp member
        exact ⟨fun top => (first top).2, belongs, readable, valid⟩
      · rw [keyValues, behindTag, if_pos checked, only, List.flatMap_singleton]
        rfl
      · rw [references, behindTag, if_pos checked, only, List.flatMap_singleton, withElement,
          List.map_append, map_referencesOf]
    · have nothing : checkedHeads schema [⟨ancestors, head⟩] = [] := by
        simp [checkedHeads, checked]
      constructor
      · intro place member holds
        obtain rfl := List.mem_singleton.mp member
        exact absurd holds checked
      · rw [keyValues, behindTag, if_neg checked, nothing]
        rfl
      · rw [references, behindTag, if_neg checked, nothing]
        exact (List.append_nil _).symm

end Passed

/-- What is no tag changes at most the frames. -/
theorem checkEvent_eq_ok {progress last : Progress} {resolved : Resolved} {position : Nat}
    (isLeaf : resolved.event.isLeaf)
    (passed : checkEvent resolver settings schema progress resolved position = .ok last) :
    last = progress := by
  obtain ⟨resolution, event⟩ := resolved
  cases event with
  | opening _ | empty _ | closing _ => cases isLeaf
  | text raw =>
    simp only [checkEvent, bind_eq_ok_iff, pure_eq_ok_iff] at passed
    obtain ⟨_, _, _, _, rfl⟩ := passed
    rfl
  | cdata _ | doctype _ =>
    simp only [checkEvent, bind_eq_ok_iff, pure_eq_ok_iff] at passed
    obtain ⟨_, _, rfl⟩ := passed
    rfl
  | comment _ | instruction _ =>
    cases passed
    rfl

/-- The elements of a trace pass if its events do. -/
theorem passed_of_checkEvents {trace : Trace Resolved} {ancestors : List Element}
    {progress last : Progress} (frames : progress.frames = framesOf schema ancestors)
    (distinct : progress.keyValues.Nodup)
    (passed : checkEvents resolver settings schema progress trace = .ok last) :
    Passed schema (elementPlaces ancestors trace) progress last := by
  induction trace generalizing ancestors progress with
  | ended =>
    cases passed
    exact .nil rfl rfl
  | failed error start stop => cases passed
  | item resolved start rest ih =>
    rw [checkEvents] at passed
    cases step : checkEvent resolver settings schema progress resolved start with
    | error error =>
      rw [step] at passed
      cases passed
    | ok middle =>
      rw [step] at passed
      obtain ⟨resolution, event⟩ := resolved
      cases event with
      | opening tag =>
        obtain ⟨first, distinct, frames⟩ := Passed.tag ⟨tag, resolution⟩ false frames distinct step
        exact first.trans (ih frames distinct passed)
      | empty tag =>
        obtain ⟨first, distinct, frames⟩ := Passed.tag ⟨tag, resolution⟩ true frames distinct step
        exact first.trans (ih frames distinct passed)
      | closing name =>
        cases step
        have behind : progress.frames.tail = framesOf schema ancestors.tail := by
          rw [frames]
          cases ancestors <;> rfl
        have others : Passed schema (elementPlaces ancestors.tail rest)
            { progress with frames := progress.frames.tail } last := ih behind distinct passed
        exact ⟨others.conform, others.keyValues, others.references⟩
      | text _ | cdata _ | comment _ | instruction _ | doctype _ =>
        obtain rfl := checkEvent_eq_ok rfl step
        exact ih frames distinct passed

/-- In a trace that is accepted every checked element conforms, and references are to values that
checked elements have. -/
theorem Accepts.conform {trace : Trace Resolved}
    (accepted : Accepts resolver settings schema trace) :
    (∀ place ∈ elementPlaces [] trace, IsChecked schema place.ancestors → Conforms schema place) ∧
      ∀ reference ∈ schema.references, ∀ key ∈ schema.keys.find? (·.name = reference.refer),
        ∀ value ∈ valuesAt reference.element reference.attributeName
            (checkedHeads schema (elementPlaces [] trace)),
          value ∈ valuesAt key.element key.attributeName
            (checkedHeads schema (elementPlaces [] trace)) := by
  obtain ⟨last, checked, -, known⟩ := accepted
  have passed : Passed schema (elementPlaces [] trace) {} last :=
    passed_of_checkEvents rfl List.nodup_nil checked
  refine ⟨passed.conform, forall_referencesMade_iff.mp ?_⟩
  rw [checkReferences_eq_ok_iff, passed.references, passed.keyValues] at known
  simpa using known

end GraphMarkup.Validation
