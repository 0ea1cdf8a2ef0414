import GraphMarkup.Proofs.Document.Meaning
import GraphMarkup.Proofs.Markup.AttributeScan
import GraphMarkup.Proofs.Markup.PlainName

/-!
# Reading follows the tree

Each of the reader's loops consumes exactly the events of one forest: leaving
an element out, collecting its character data, reading its data and reading
the children of the graph element all stop at the tag that ends the element.
-/

namespace GraphMarkup.Document

open GraphMarkup.Attributes
open GraphMarkup.Markup
open GraphMarkup.Text

/-- Leaving a forest out leads to what stands behind it. -/
theorem skip_of_reads {trace last : Trace Resolved} {nodes : List Node}
    (reads : Reads trace nodes last) (depth : Nat) : skip depth trace = skip depth last := by
  induction reads generalizing depth with
  | nil => rfl
  | @leaf event _ _ _ _ isLeaf _ ih =>
    rw [← ih depth]
    cases event <;> first | rfl | cases isLeaf
  | empty _ ih => exact ih depth
  | element _ _ insideIh behindIh =>
    rw [← behindIh depth]
    exact insideIh (depth + 1)

section

variable {head : Element}

theorem declaredNamespace?_of_wellFormed (wellFormed : head.WellFormed) :
    declaredNamespace? head.resolution = .ok head.namespace? := by
  have declared := wellFormed.declared
  rcases head with ⟨tag, resolution⟩
  cases resolution with
  | bound uri => rfl
  | unbound => rfl
  | unknown qualifier => exact absurd rfl (declared qualifier)

theorem contentOf_tagEvent (wellFormed : head.WellFormed) (isEmpty : Bool) :
    contentOf ⟨head.resolution, tagEvent head.tag isEmpty⟩ =
      .ok (.opening head.tag head.namespace? isEmpty) := by
  cases isEmpty <;>
    simp only [contentOf, declaredNamespace?_of_wellFormed wellFormed] <;> rfl

/-- An end tag says that an element ends if its qualifier is bound. -/
theorem contentOf_closing_of_declared {resolution : Resolution}
    (declared : ∀ qualifier, resolution ≠ .unknown qualifier) (name : Bytes) :
    contentOf ⟨resolution, .closing name⟩ = .ok .closing := by
  cases resolution with
  | unknown qualifier => exact absurd rfl (declared qualifier)
  | _ => rfl

theorem contentOf_closing (wellFormed : head.WellFormed) (name : Bytes) :
    contentOf ⟨head.resolution, .closing name⟩ = .ok .closing :=
  contentOf_closing_of_declared wellFormed.declared name

/-- A leaf is character data, which is collected, or means nothing. -/
theorem contentOf_leaf {event : Event} (isLeaf : event.isLeaf)
    (wellFormed : event.WellFormed) :
    contentOf ⟨.unbound, event⟩ = .ok (.text (characterData [.leaf event])) ∨
      contentOf ⟨.unbound, event⟩ = .ok .other ∧ characterData [.leaf event] = "" := by
  cases event with
  | opening tag => cases isLeaf
  | empty tag => cases isLeaf
  | closing name => cases isLeaf
  | text raw =>
    rcases wellFormed with ⟨text, read⟩
    left
    simp [contentOf, declaredNamespace?, bind, Except.bind, read, characterData,
      textOf_eq_of_rawText_eq read, mapError_ok]
  | cdata content =>
    rcases wellFormed with ⟨text, decoded⟩
    left
    simp [contentOf, declaredNamespace?, bind, Except.bind, decoded, characterData,
      shownName_eq_of_decodeUtf8_eq decoded, mapError_ok]
  | comment content => exact .inr ⟨rfl, rfl⟩
  | instruction content => exact .inr ⟨rfl, rfl⟩
  | doctype content => exact .inr ⟨rfl, rfl⟩

end

/-- An element is left out as a whole. -/
theorem skip_of_inside {Content : Trace Resolved → List Node → Trace Resolved → Prop}
    {head : Element} {isEmpty : Bool} {content rest : Trace Resolved} {children : List Node}
    (inside : Inside Content head isEmpty content children rest)
    (reads : ∀ {trace nodes last}, Content trace nodes last → Reads trace nodes last) :
    (if isEmpty then .ok content else skip 0 content) = .ok rest := by
  cases inside with
  | empty => rfl
  | content holds => exact skip_of_reads (reads holds) 0

/-- The character data of a forest is collected, and nothing else of it. -/
theorem collectText_of_reads {trace last : Trace Resolved} {nodes : List Node}
    (reads : Reads trace nodes last) (wellFormed : Forest.WellFormed nodes)
    (collected : String) :
    collectText collected trace = collectText (collected ++ characterData nodes) last := by
  refine reads_induction
    (motive := fun trace nodes last => Forest.WellFormed nodes → ∀ collected,
      collectText collected trace = collectText (collected ++ characterData nodes) last)
    ?nil ?leaf ?element reads wellFormed collected
  case nil => simp [characterData]
  case leaf =>
    intro event start rest last nodes isLeaf ih wellFormed collected
    rw [characterData_leaf_cons, ← String.append_assoc, ← ih wellFormed.2, collectText]
    rcases contentOf_leaf isLeaf wellFormed.1 with read | ⟨read, blank⟩
    · simp only [read]
    · simp only [read, blank, String.append_empty]
  case element =>
    intro head isEmpty start content rest last children nodes inside _ ih wellFormed collected
    have skipped := skip_of_inside inside And.left
    rw [collectText]
    simp only [contentOf_tagEvent wellFormed.1.1]
    cases isEmpty with
    | true =>
      cases skipped
      exact ih wellFormed.2 collected
    | false =>
      dsimp only
      split
      · cases skipped.symm.trans ‹_›
      · cases skipped.symm.trans ‹_›
        exact ih wellFormed.2 collected

/-- The character data of an element is that of its children. -/
theorem elementText_of_inside {head : Element} {isEmpty : Bool}
    {content rest : Trace Resolved} {children : List Node}
    (inside : Inside Reads head isEmpty content children rest)
    (wellFormed : (Node.element head children).WellFormed) :
    elementText isEmpty content = .ok (characterData children, rest) := by
  cases inside with
  | empty => rfl
  | content reads =>
    rw [elementText, if_neg Bool.false_ne_true, collectText_of_reads reads wellFormed.2,
      String.empty_append, collectText]
    simp only [contentOf_closing wellFormed.1]

/-! ## Data -/

/-- A value that an element must have is looked up as the tree says. -/
theorem requiredText_of_wellFormed {head : Element} (wellFormed : head.WellFormed)
    (element attributeName : String) :
    requiredText head.tag element attributeName = valueOf head element attributeName := by
  rw [requiredText, Tag.attribute?_of_complete wellFormed.complete, valueOf,
    Element.attribute?, Element.attributes]
  cases found : (head.tag.attributes true).found.find? (·.key = bytesOf attributeName) with
  | none => rfl
  | some entry =>
    rcases wellFormed.valued entry (List.mem_of_find?_eq_some found) with ⟨value, read⟩
    simp [read, textOf_eq_of_rawText_eq read]

/-- An element has a plain name exactly if its tag has it. -/
theorem hasName_iff {head : Element} (wellFormed : head.WellFormed) {name : String}
    (plain : IsPlain name) : hasName head.tag name ↔ head.name = name := by
  rcases wellFormed.named with ⟨found, decoded⟩
  rw [hasName, beq_iff_eq, Element.name, shownName_eq_of_decodeUtf8_eq decoded,
    decodeUtf8_eq_ok_iff.mp decoded, ← plain.encodeUtf8_eq]
  exact ⟨fun same => encodeUtf8_injective same, congrArg encodeUtf8⟩

/-- The reader's test for an element of the vocabulary is that of the tree. -/
theorem isNamed_iff {head : Element} (wellFormed : head.WellFormed)
    (namespace? : Option Bytes) {name : String} (plain : IsPlain name) :
    (head.namespace? = namespace? ∧ hasName head.tag name) ↔ IsNamed namespace? name head :=
  and_congr_right fun _ => hasName_iff wellFormed plain

/-- Reading one data element sets the attribute that its key names. -/
theorem readDataElement_of_inside {α : Type} {codec : Codec α} {owner : α} {head : Element}
    {isEmpty : Bool} {content rest : Trace Resolved} {children : List Node}
    (inside : Inside Reads head isEmpty content children rest)
    (wellFormed : (Node.element head children).WellFormed) :
    readDataElement codec owner head.tag isEmpty content =
      (do
        let key ← valueOf head ElementName.data AttributeName.key
        let owner ← (codec.read key (characterData children) owner).mapError .data
        pure (owner, rest)) := by
  rw [readDataElement, requiredText_of_wellFormed wellFormed.1,
    elementText_of_inside inside wellFormed]
  rfl

section

variable {α : Type} {namespace? : Option Bytes} {codec : Codec α} {element : String}

variable (namespace? codec element) in
/-- At a tag the reader of data sets an attribute or leaves an element out, and goes
on behind the element. -/
theorem readData_item_opening {resolved : Resolved} {tag : Tag} {found? : Option Bytes}
    {isEmpty : Bool} (opening : contentOf resolved = .ok (.opening tag found? isEmpty))
    (owner : α) (start : Nat) (content : Trace Resolved) :
    readData namespace? codec element owner (.item resolved start content) =
      if found? = namespace? ∧ hasName tag ElementName.data then
        readDataElement codec owner tag isEmpty content >>= fun (owner, rest) =>
          readData namespace? codec element owner rest
      else
        (if isEmpty then .ok content else skip 0 content) >>= fun rest =>
          readData namespace? codec element owner rest := by
  rw [readData]
  simp only [opening]
  split
  · cases readDataElement codec owner tag isEmpty content <;> rfl
  · cases isEmpty with
    | true => rfl
    | false => cases skip 0 content <;> rfl

/-- Reading the data of an element follows the tree: it fails as the tree says, or
goes on behind the forest with what the tree says. -/
theorem readData_of_reads {trace last : Trace Resolved} {nodes : List Node}
    (reads : Reads trace nodes last) (wellFormed : Forest.WellFormed nodes) (owner : α) :
    readData namespace? codec element owner trace =
      (do
        let owner ← meaningOfData namespace? codec owner nodes
        readData namespace? codec element owner last) := by
  refine reads_induction
    (motive := fun trace nodes last => Forest.WellFormed nodes → ∀ owner,
      readData namespace? codec element owner trace =
        (do
          let owner ← meaningOfData namespace? codec owner nodes
          readData namespace? codec element owner last))
    ?nil ?leaf ?element reads wellFormed owner
  case nil =>
    intro trace _ owner
    rfl
  case leaf =>
    intro event start rest last nodes isLeaf ih wellFormed owner
    rw [readData, meaningOfData, ← ih wellFormed.2]
    rcases contentOf_leaf isLeaf wellFormed.1 with read | ⟨read, _⟩ <;> simp only [read]
  case element =>
    intro head isEmpty start content rest last children nodes inside _ ih wellFormed owner
    rw [readData_item_opening namespace? codec element (contentOf_tagEvent wellFormed.1.1 isEmpty),
      readDataElement_of_inside (inside.imp And.left) wellFormed.1,
      skip_of_inside inside And.left, meaningOfData]
    simp only [isNamed_iff wellFormed.1.1 namespace? (by decide : IsPlain ElementName.data)]
    split
    · cases valueOf head ElementName.data AttributeName.key with
      | error error => rfl
      | ok key =>
        cases set : codec.read key (characterData children) owner with
        | error cause => simp [set, bind, Except.bind]
        | ok owner =>
          simp only [set, mapError_ok, bind, Except.bind, pure, Except.pure]
          exact ih wellFormed.2 owner
    · exact ih wellFormed.2 owner

/-- Reading an owner gives it its defaults and then its data. -/
theorem readOwner_of_inside {head : Element} {isEmpty : Bool}
    {content rest : Trace Resolved} {children : List Node}
    (inside : Inside Reads head isEmpty content children rest)
    (wellFormed : (Node.element head children).WellFormed) (owner : α) :
    readOwner namespace? codec element isEmpty owner content =
      (do
        let owner ← meaningOfData namespace? codec (codec.applyDefaults owner) children
        pure (owner, rest)) := by
  cases inside with
  | empty => rfl
  | content reads =>
    rw [readOwner, if_neg Bool.false_ne_true, readData_of_reads reads wellFormed.2]
    refine bind_congr fun owner => ?_
    rw [readData]
    simp only [contentOf_closing wellFormed.1]
    rfl

end

end GraphMarkup.Document
