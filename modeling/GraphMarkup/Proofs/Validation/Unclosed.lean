import GraphMarkup.Proofs.Markup.Completeness
import GraphMarkup.Proofs.Schema.GraphSchema
import GraphMarkup.Proofs.Validation.Clauses

/-!
# Validation of documents that are not closed

The end of the input is no event, so a document passes validation in which elements
are still open there. It is judged by the tree that it has once the missing end tags
are added: an end tag takes away the frame of its element, and nothing is asked of the
frames that are left at the end.
-/

namespace GraphMarkup.Validation

open GraphMarkup.Markup
open GraphMarkup.Schema

variable {resolver : Resolver} {settings : Settings} {schema : Schema}

/-- End tags only take away frames. -/
theorem checkEvents_endTags {tags : List Resolved} (areTags : ∀ tag ∈ tags, tag.IsEndTag)
    (progress : Progress) :
    checkEvents resolver settings schema progress (Trace.followedBy tags .ended) =
      .ok { progress with frames := progress.frames.drop tags.length } := by
  induction tags generalizing progress with
  | nil => rfl
  | cons tag tags ih =>
    obtain ⟨⟨name, closing⟩, others⟩ := List.forall_mem_cons.mp areTags
    rcases tag with ⟨resolution, event⟩
    cases closing
    have rest := ih others { progress with frames := progress.frames.tail }
    rw [List.drop_tail] at rest
    exact rest

/-- End tags behind the end of a trace change nothing but the frames. -/
theorem checkEvents_followedBy {tags : List Resolved} (areTags : ∀ tag ∈ tags, tag.IsEndTag)
    (progress : Progress) (trace : Trace Resolved) :
    checkEvents resolver settings schema progress (trace.followedBy tags) =
      (checkEvents resolver settings schema progress trace).map
        fun last => { last with frames := last.frames.drop tags.length } := by
  induction trace generalizing progress with
  | ended => exact checkEvents_endTags areTags progress
  | failed error start stop => rfl
  | item resolved start rest ih =>
    rw [Trace.followedBy, checkEvents, checkEvents]
    cases checkEvent resolver settings schema progress resolved start with
    | error error => rfl
    | ok progress => exact ih progress

/-- Missing end tags make no difference. -/
theorem accepts_followedBy_iff {tags : List Resolved} (areTags : ∀ tag ∈ tags, tag.IsEndTag)
    (trace : Trace Resolved) :
    Accepts resolver settings schema (trace.followedBy tags) ↔
      Accepts resolver settings schema trace := by
  rw [Accepts, Accepts, checkEvents_followedBy areTags]
  cases checkEvents resolver settings schema {} trace with
  | error error => simp [Except.map]
  | ok progress => simp [Except.map]

/-- Where markup cannot be read no document passes. -/
theorem not_accepts_of_missingTags?_eq_none {trace : Trace Resolved} {expected : List Resolved}
    (fails : missingTags? expected trace = none) (progress last : Progress) :
    checkEvents resolver settings schema progress trace ≠ .ok last := by
  intro passed
  induction trace generalizing expected progress with
  | ended => cases fails
  | failed error start stop => cases passed
  | item resolved start rest ih =>
    rw [checkEvents] at passed
    cases step : checkEvent resolver settings schema progress resolved start with
    | error error =>
      rw [step] at passed
      cases passed
    | ok middle =>
      rw [step] at passed
      rcases resolved with ⟨resolution, event⟩
      cases event with
      | opening tag =>
        have fails : missingTags? (⟨resolution, .closing tag.name⟩ :: expected) rest = none := fails
        exact ih fails middle passed
      | _ => exact ih fails middle passed

/-- A document whose markup cannot be read does not pass. Any other document is judged by the tree
that it has once the missing end tags are added. -/
theorem validate_eq_ok_iff_valid_followedBy (document : Bytes) :
    (missingTags? [] (Markup.read document) = none →
      validate resolver settings schema document ≠ .ok ()) ∧
    ∀ missing, missingTags? [] (Markup.read document) = some missing →
      (∃ nodes, Reads ((Markup.read document).followedBy missing) nodes .ended) ∧
        ∀ nodes, Reads ((Markup.read document).followedBy missing) nodes .ended →
          Forest.WellFormed nodes →
            (validate resolver settings schema document = .ok () ↔
              Valid resolver settings schema nodes) := by
  constructor
  · intro fails accepted
    obtain ⟨progress, passed, -⟩ := validate_eq_ok_iff_accepts.mp accepted
    exact not_accepts_of_missingTags?_eq_none fails _ _ passed
  · intro missing ends
    obtain ⟨areTags, tree⟩ := exists_reads_followedBy ends
    refine ⟨tree, fun nodes reads wellFormed => ?_⟩
    rw [validate_eq_ok_iff_accepts, ← accepts_followedBy_iff areTags,
      accepts_iff_valid reads wellFormed]

/-- A graph document that ends inside its graph element. -/
def openGraph : Bytes :=
  bytesOf ("<graphml xmlns=\"http://graphml.graphdrawing.org/xmlns\">" ++
    "<graph edgedefault=\"directed\">")

theorem validate_openGraph :
    validate Resolver.embedded {} graphSchema openGraph = .ok () := by
  have passes : ∃ value, validate Resolver.embedded {} graphSchema openGraph = .ok value := by
    decide +kernel
  obtain ⟨_, passes⟩ := passes
  exact passes

/-- The document that ends inside its graph element passes validation although it is not
complete. -/
theorem validateWith_openGraph :
    validateWith Resolver.embedded {} openGraph = .ok () ∧ ¬Complete openGraph := by
  have loaded : load Resolver.embedded ({} : Settings).schema = .ok graphSchema := load_embedded
  constructor
  · rw [validateWith, loaded]
    exact validate_openGraph
  · rw [complete_iff_missingTags?]
    decide +kernel

/-- The namespace of that document. -/
def openNamespace : Resolution :=
  .bound (bytesOf "http://graphml.graphdrawing.org/xmlns")

/-- The end tags that are missing in that document. -/
def openTags : List Resolved :=
  [⟨openNamespace, .closing (bytesOf "graph")⟩, ⟨openNamespace, .closing (bytesOf "graphml")⟩]

/-- The tree of that document with these tags. -/
def openNodes : List Node :=
  [.element ⟨⟨bytesOf "graphml xmlns=\"http://graphml.graphdrawing.org/xmlns\""⟩, openNamespace⟩
    [.element ⟨⟨bytesOf "graph edgedefault=\"directed\""⟩, openNamespace⟩ []]]

/-- The document passes because the tree that it has with the missing end tags is valid. -/
theorem valid_openNodes :
    missingTags? [] (Markup.read openGraph) = some openTags ∧
      Reads ((Markup.read openGraph).followedBy openTags) openNodes .ended ∧
        Forest.WellFormed openNodes ∧
          validate Resolver.embedded {} graphSchema openGraph = .ok () ∧
            Valid Resolver.embedded {} graphSchema openNodes := by
  have ends : missingTags? [] (Markup.read openGraph) = some openTags := by
    decide +kernel
  have reads : Reads ((Markup.read openGraph).followedBy openTags) openNodes .ended := by
    decide +kernel
  have wellFormed : Forest.WellFormed openNodes := by
    decide +kernel
  have judged : validate Resolver.embedded {} graphSchema openGraph = .ok () ↔
      Valid Resolver.embedded {} graphSchema openNodes :=
    ((validate_eq_ok_iff_valid_followedBy openGraph).2 openTags ends).2 openNodes reads wellFormed
  exact ⟨ends, reads, wellFormed, validate_openGraph, judged.mp validate_openGraph⟩

end GraphMarkup.Validation
