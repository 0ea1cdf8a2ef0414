import GraphMarkup.Proofs.Document.PartialReading
import GraphMarkup.Proofs.Validation.Passed

/-!
# Absences

Some errors say that an element lacks an attribute or that a vertex is not known. Each of
them is due to an element that stands in the graph element or in one of its children, and
so to one of the elements of the document, at a place that is known.
-/

namespace GraphMarkup.Markup

/-- The element of a tag whose name is in a namespace, if it is in one. -/
def elementOf (tag : Tag) (uri? : Option Bytes) : Element :=
  ⟨tag, match uri? with
    | some uri => .bound uri
    | none => .unbound⟩

theorem namespace?_elementOf (tag : Tag) (uri? : Option Bytes) :
    (elementOf tag uri?).namespace? = uri? := by
  cases uri? <;> rfl

end GraphMarkup.Markup

namespace GraphMarkup.Document

open GraphMarkup.Attributes
open GraphMarkup.Graph
open GraphMarkup.Markup
open GraphMarkup.Text

/-! ## Where the reader is -/

section

variable {resolved : Resolved} {tag : Tag} {uri? : Option Bytes} {isEmpty : Bool} {start : Nat}
  {content rest : Trace Resolved}

/-- A tag that is read opens its element. -/
theorem elementPlaces_opening (opening : contentOf resolved = .ok (.opening tag uri? isEmpty))
    (ancestors : List Element) :
    elementPlaces ancestors (.item resolved start content) =
      ⟨ancestors, elementOf tag uri?⟩ ::
        elementPlaces (if isEmpty then ancestors else elementOf tag uri? :: ancestors) content := by
  have resolution : (⟨tag, resolved.resolution⟩ : Element) = elementOf tag uri? := by
    obtain ⟨resolution, event⟩ := resolved
    simp only [contentOf, bind_eq_ok_iff] at opening
    obtain ⟨found?, declared, same⟩ := opening
    have found : found? = uri? := by
      cases event <;> simp_all
    subst found
    cases resolution <;> cases declared <;> rfl
  rw [elementPlaces_tagEvent (event_of_contentOf opening), resolution]

theorem elementPlaces_closing (closing : contentOf resolved = .ok .closing)
    (ancestors : List Element) :
    elementPlaces ancestors (.item resolved start rest) = elementPlaces ancestors.tail rest := by
  obtain ⟨name, event⟩ := event_of_contentOf closing
  rw [elementPlaces, event]

/-- Behind elements that are left out, what follows stands in those around them. -/
theorem elementPlaces_suffix_of_skip {depth : Nat} {trace : Trace Resolved}
    (skipped : skip depth trace = .ok rest) (opened : List Element)
    (length : opened.length = depth + 1) (ancestors : List Element) :
    elementPlaces ancestors rest <:+ elementPlaces (opened ++ ancestors) trace := by
  fun_induction skip depth trace generalizing opened with
  | case1 => cases skipped
  | case2 => cases skipped
  | case3 depth resolved start behind tag opening ih =>
    have inner := ih skipped (⟨tag, resolved.resolution⟩ :: opened) (congrArg _ length)
    rw [elementPlaces, opening]
    exact inner.trans (List.suffix_cons _ _)
  | case4 resolved start behind name closing =>
    cases skipped
    obtain ⟨head, rfl⟩ := List.length_eq_one_iff.mp length
    rw [elementPlaces, closing]
    exact List.suffix_rfl
  | case5 resolved start behind name closing depth ih =>
    obtain ⟨head, opened, rfl⟩ := List.exists_cons_of_length_eq_add_one length
    rw [elementPlaces, closing]
    exact ih skipped opened (Nat.succ.inj length)
  | case6 depth resolved start behind notOpening notClosing ih =>
    refine (ih skipped opened length).trans ?_
    rw [elementPlaces]
    split
    · exact absurd ‹_› (notOpening _)
    · exact List.suffix_cons _ _
    · exact absurd ‹_› (notClosing _)
    · exact List.suffix_rfl

theorem elementPlaces_suffix_of_leaveOut (left : leaveOut isEmpty content = .ok rest)
    (head : Element) (ancestors : List Element) :
    elementPlaces ancestors rest <:+
      elementPlaces (if isEmpty then ancestors else head :: ancestors) content := by
  cases isEmpty with
  | true =>
    cases left
    exact List.suffix_rfl
  | false => exact elementPlaces_suffix_of_skip left [head] rfl ancestors

end

/-- An element has a name exactly if its tag has it. -/
theorem isNamed_elementOf_iff {tag : Tag} {uri? namespace? : Option Bytes} {name : String}
    (plain : IsPlain name) :
    IsNamed namespace? name (elementOf tag uri?) ↔ uri? = namespace? ∧ hasName tag name := by
  have shown : (elementOf tag uri?).name = shownName (localName tag.name) := rfl
  rw [IsNamed, namespace?_elementOf, hasName, beq_iff_eq, shown, shownName, ← plain.encodeUtf8_eq]
  refine and_congr_right fun _ => ?_
  cases decoded : decodeUtf8 (localName tag.name) with
  | ok text =>
    rw [decodeUtf8_eq_ok_iff.mp decoded]
    exact ⟨congrArg encodeUtf8, fun same => encodeUtf8_injective same⟩
  | error cause =>
    refine iff_of_false ?_ ?_
    · rintro rfl
      exact plain.1 rfl
    · intro same
      rw [same, decodeUtf8_encodeUtf8] at decoded
      cases decoded

/-! ## The elements that the reader comes across -/

/-- The element of a child. -/
def ChildElement.head (child : ChildElement) : Element :=
  elementOf child.tag child.uri?

/-- The elements in a child, inside the given ones. -/
def ChildElement.places (around : List Element) (child : ChildElement) : List ElementPlace :=
  elementPlaces (if child.isEmpty then around else child.head :: around) child.content

/-- A child and what stands in it are elements of the document. -/
theorem places_of_mem_childElements {trace : Trace Resolved} {child : ChildElement}
    (member : child ∈ childElements trace) (around : List Element) :
    ⟨around, child.head⟩ :: child.places around <:+ elementPlaces around trace := by
  fun_induction childElements trace with
  | case1 => cases member
  | case2 => cases member
  | case3 => cases member
  | case4 resolved start content tag uri? isEmpty opening ih =>
    rw [elementPlaces_opening opening]
    rcases List.mem_cons.mp member with rfl | behind
    · exact List.suffix_rfl
    · split at behind
      · cases behind
      · rename_i rest left
        have inside := elementPlaces_suffix_of_leaveOut left (elementOf tag uri?) around
        exact (ih rest left behind).trans (inside.trans (List.suffix_cons _ _))
  | case5 => cases member
  | case6 resolved start rest text leaf ih =>
    rw [elementPlaces_leaf (event_of_contentOf leaf)]
    exact ih member
  | case7 resolved start rest leaf ih =>
    rw [elementPlaces_leaf (event_of_contentOf leaf)]
    exact ih member

/-- The search for the root passes over elements with other names. -/
theorem places_of_findRoot {trace behind : Trace Resolved} {namespace? : Option Bytes}
    (found : findRoot trace = .ok (namespace?, behind)) (around : List Element) :
    ∃ front around' root, elementPlaces around trace =
        front ++ ⟨around', root⟩ :: elementPlaces (root :: around') behind ∧
      IsNamed namespace? ElementName.graphml root ∧
      ∀ place ∈ front, place.head.name ≠ ElementName.graphml := by
  have plain : IsPlain ElementName.graphml := by decide
  fun_induction findRoot trace generalizing around with
  | case1 => cases found
  | case2 => cases found
  | case3 => cases found
  | case4 => cases found
  | case5 resolved start behind tag uri? isEmpty opening named notEmpty =>
    cases found
    refine ⟨[], around, elementOf tag namespace?, ?_,
      (isNamed_elementOf_iff plain).mpr ⟨rfl, named⟩, List.forall_mem_nil _⟩
    rw [elementPlaces_opening opening, if_neg notEmpty]
    rfl
  | case6 resolved start behind tag uri? isEmpty opening other ih =>
    obtain ⟨front, around', root, same, named, others⟩ :=
      ih found (if isEmpty then around else elementOf tag uri? :: around)
    refine ⟨⟨around, elementOf tag uri?⟩ :: front, around', root, ?_, named,
      List.forall_mem_cons.mpr ⟨?_, others⟩⟩
    · rw [elementPlaces_opening opening, same]
      rfl
    · intro same
      have named : IsNamed uri? ElementName.graphml (elementOf tag uri?) :=
        ⟨namespace?_elementOf tag uri?, same⟩
      exact other ((isNamed_elementOf_iff plain).mp named).2
  | case7 resolved start behind content notOpening read ih =>
    cases content with
    | opening tag uri? isEmpty => exact absurd rfl (notOpening tag uri? isEmpty)
    | closing =>
      rw [elementPlaces_closing read]
      exact ih found around.tail
    | text _ | other =>
      rw [elementPlaces_leaf (event_of_contentOf read)]
      exact ih found around

/-- The search for the graph element ends at the first one. -/
theorem places_of_findGraph {trace content : Trace Resolved} {namespace? : Option Bytes}
    {isEmpty : Bool} (found : findGraph namespace? trace = .ok (isEmpty, content))
    (around : List Element) :
    ∃ around' graph,
      (elementPlaces around trace).find? (fun place =>
          IsNamed namespace? ElementName.graph place.head) = some ⟨around', graph⟩ ∧
        elementPlaces (if isEmpty then around' else graph :: around') content <:+
          elementPlaces around trace := by
  have plain : IsPlain ElementName.graph := by decide
  fun_induction findGraph namespace? trace generalizing around with
  | case1 => cases found
  | case2 => cases found
  | case3 => cases found
  | case4 resolved start behind tag uri? isEmpty opening named =>
    cases found
    refine ⟨around, elementOf tag uri?, ?_, ?_⟩
    · rw [elementPlaces_opening opening, List.find?_cons_of_pos]
      exact decide_eq_true ((isNamed_elementOf_iff plain).mpr named)
    · rw [elementPlaces_opening opening]
      exact List.suffix_cons _ _
  | case5 resolved start behind tag uri? isEmpty' opening other ih =>
    obtain ⟨around', graph, first, inside⟩ :=
      ih found (if isEmpty' then around else elementOf tag uri? :: around)
    refine ⟨around', graph, ?_, ?_⟩
    · rw [elementPlaces_opening opening, List.find?_cons_of_neg]
      · exact first
      · intro named
        exact other ((isNamed_elementOf_iff plain).mp (of_decide_eq_true named))
    · rw [elementPlaces_opening opening]
      exact inside.trans (List.suffix_cons _ _)
  | case6 resolved start behind content' notOpening read ih =>
    cases content' with
    | opening tag uri? isEmpty => exact absurd rfl (notOpening tag uri? isEmpty)
    | closing =>
      rw [elementPlaces_closing read]
      exact ih found around.tail
    | text _ | other =>
      rw [elementPlaces_leaf (event_of_contentOf read)]
      exact ih found around

/-! ## Errors of layout -/

/-- An error about how a document is spelled, where it ends or which elements are not there, and
not about what an element says. -/
def IsOfLayout : Error → Prop
  | .unfinished _ => True
  | .rootNotFound => True
  | .graphNotFound => True
  | error => IsOfMarkup error

theorem IsOfMarkup.isOfLayout {error : Error} (ofMarkup : IsOfMarkup error) : IsOfLayout error := by
  cases error with
  | markup | undeclaredQualifier | encoding => trivial
  | _ => cases ofMarkup

theorem isOfLayout_of_skip {depth : Nat} {trace : Trace Resolved} {error : Error}
    (failed : skip depth trace = .error error) : IsOfLayout error := by
  fun_induction skip depth trace with
  | case1 =>
    cases failed
    trivial
  | case2 =>
    cases failed
    trivial
  | case3 depth resolved start rest tag opening ih => exact ih failed
  | case4 => cases failed
  | case5 resolved start rest name closing depth ih => exact ih failed
  | case6 depth resolved start rest notOpening notClosing ih => exact ih failed

theorem isOfLayout_of_leaveOut {isEmpty : Bool} {content : Trace Resolved} {error : Error}
    (failed : leaveOut isEmpty content = .error error) : IsOfLayout error := by
  cases isEmpty with
  | true => cases failed
  | false => exact isOfLayout_of_skip failed

theorem isOfLayout_of_collectText {collected : String} {trace : Trace Resolved} {error : Error}
    (failed : collectText collected trace = .error error) : IsOfLayout error := by
  fun_induction collectText collected trace with
  | case1 =>
    cases failed
    trivial
  | case2 =>
    cases failed
    trivial
  | case3 collected resolved start rest error' unread =>
    cases failed
    exact (isOfMarkup_of_contentOf unread).isOfLayout
  | case4 collected resolved start content tag uri? opening error' fails =>
    cases failed
    exact isOfLayout_of_skip fails
  | case5 collected resolved start content tag uri? opening rest skipped ih => exact ih failed
  | case6 collected resolved start content tag uri? opening ih => exact ih failed
  | case7 => cases failed
  | case8 collected resolved start rest text leaf ih => exact ih failed
  | case9 collected resolved start rest leaf ih => exact ih failed

theorem isOfLayout_of_elementText {isEmpty : Bool} {content : Trace Resolved} {error : Error}
    (failed : elementText isEmpty content = .error error) : IsOfLayout error := by
  cases isEmpty with
  | true => cases failed
  | false => exact isOfLayout_of_collectText failed

theorem isOfLayout_of_findRoot {trace : Trace Resolved} {error : Error}
    (failed : findRoot trace = .error error) : IsOfLayout error := by
  fun_induction findRoot trace with
  | case1 | case2 | case4 =>
    cases failed
    trivial
  | case3 resolved start rest error' unread =>
    cases failed
    exact (isOfMarkup_of_contentOf unread).isOfLayout
  | case5 => cases failed
  | case6 resolved start rest tag uri? isEmpty opening other ih => exact ih failed
  | case7 resolved start rest content notOpening read ih => exact ih failed

theorem isOfLayout_of_findGraph {namespace? : Option Bytes} {trace : Trace Resolved}
    {error : Error} (failed : findGraph namespace? trace = .error error) : IsOfLayout error := by
  fun_induction findGraph namespace? trace with
  | case1 | case2 =>
    cases failed
    trivial
  | case3 resolved start rest error' unread =>
    cases failed
    exact (isOfMarkup_of_contentOf unread).isOfLayout
  | case4 => cases failed
  | case5 resolved start rest tag uri? isEmpty opening other ih => exact ih failed
  | case6 resolved start rest content notOpening read ih => exact ih failed

/-- If the graph element of a document is not reached, the error is about that. -/
theorem isOfLayout_of_graphElement?_eq_none {V E A G : Type} [Target G V E A]
    {codecs : Codecs V E A} {factories : Factories V E} {trace : Trace Resolved} {before : G}
    {error : Error} (absent : graphElement? trace = none)
    (failed : (readTrace codecs factories trace before).1 = .error error) : IsOfLayout error := by
  obtain ⟨reported, misses, outcome⟩ :=
    readTrace_of_graphElement?_eq_none codecs factories absent before
  rw [outcome] at failed
  cases failed
  rcases misses with root | ⟨namespace?, behind, -, search⟩
  · exact isOfLayout_of_findRoot root
  · exact isOfLayout_of_findGraph search

/-! ## Errors that say that something is absent -/

/-- An error that says that an attribute or a vertex is absent. -/
def IsAbsence : Error → Prop
  | .missingAttribute .. => True
  | .vertexNotFound _ => True
  | _ => False

theorem IsOfLayout.not_isAbsence {error : Error} (ofLayout : IsOfLayout error) :
    ¬ IsAbsence error := by
  cases error with
  | missingAttribute | vertexNotFound => cases ofLayout
  | _ => exact id

/-- A graph that refuses edges for reasons of its own: that an attribute or a vertex is absent from
a document is none of them. -/
class HasOwnReasons (G : Type) {V E A : outParam Type} [Target G V E A] : Prop where
  not_isAbsence (edge : E) (graph : G) {error : Error}
    (refused : (Target.addEdge edge graph).1 = .error error) : ¬ IsAbsence error

instance {V E A : Type} [BEq V] [Hashable V] [Endpoints E V] :
    HasOwnReasons (AdjacencyGraph V E A) where
  not_isAbsence edge graph error refused := by
    obtain ⟨cause, -, rfl⟩ := mapError_eq_error_iff.mp refused
    exact id

/-- Looking up an attribute tells that the attribute is absent and no other. -/
theorem eq_of_requiredText_eq_error {tag : Tag} {element attributeName : String} {error : Error}
    (failed : requiredText tag element attributeName = .error error) (absence : IsAbsence error) :
    error = .missingAttribute element attributeName := by
  rw [requiredText] at failed
  split at failed
  · cases failed
    cases absence
  · cases failed
    rfl
  · obtain ⟨cause, -, rfl⟩ := mapError_eq_error_iff.mp failed
    cases absence

/-! ## What absences are due to -/

/-- A tag lacks an attribute that an element of its name must have. -/
def Lacks (tag : Tag) (element attributeName : String) : Prop :=
  requiredText tag element attributeName = .error (.missingAttribute element attributeName)

/-- What an absence is due to that is reported while a child of the graph element is read inside
the given elements, when some vertices are known. -/
inductive DueTo {V : Type} (vertices : VertexTable V) (around : List Element)
    (child : ChildElement) : Error → Prop
  /-- The child lacks an attribute. -/
  | child {element attributeName : String} (named : child.head.name = element)
      (lacks : Lacks child.tag element attributeName) :
      DueTo vertices around child (.missingAttribute element attributeName)
  /-- A data element in the child lacks its key. -/
  | data {head : Element}
      (owner : child.head.name = ElementName.node ∨ child.head.name = ElementName.edge)
      (inside : ⟨child.head :: around, head⟩ ∈ child.places around)
      (named : head.name = ElementName.data)
      (lacks : Lacks head.tag ElementName.data AttributeName.key) :
      DueTo vertices around child (.missingAttribute ElementName.data AttributeName.key)
  /-- The child is an edge, and one of its ends is not known. -/
  | vertex {attributeName id : String} (named : child.head.name = ElementName.edge)
      (isEnd : attributeName ∈ [AttributeName.source, AttributeName.target])
      (refers : requiredText child.tag ElementName.edge attributeName = .ok id)
      (unknown : vertices.lookup id = none) :
      DueTo vertices around child (.vertexNotFound id)

section

variable {α : Type} {namespace? : Option Bytes} {codec : Codec α} {element : String} {owner : α}
  {error : Error}

theorem lacks_of_readDataElement {tag : Tag} {isEmpty : Bool} {content : Trace Resolved}
    (failed : readDataElement codec owner tag isEmpty content = .error error)
    (absence : IsAbsence error) :
    error = .missingAttribute ElementName.data AttributeName.key ∧
      Lacks tag ElementName.data AttributeName.key := by
  simp only [readDataElement, bind_eq_error_iff, mapError_eq_error_iff] at failed
  rcases failed with keyless | ⟨key, -, unread | ⟨⟨text, rest⟩, -, ⟨cause, -, rfl⟩ | failed⟩⟩
  · obtain rfl := eq_of_requiredText_eq_error keyless absence
    exact ⟨rfl, keyless⟩
  · exact absurd absence (isOfLayout_of_elementText unread).not_isAbsence
  · cases absence
  · obtain ⟨_, -, failed⟩ := failed
    exact absurd failed pure_ne_error

/-- Some data among the elements of a trace has no key, and this is the error. -/
def DueToData (around : List Element) (error : Error) (trace : Trace Resolved) : Prop :=
  error = .missingAttribute ElementName.data AttributeName.key ∧
    ∃ head, ⟨around, head⟩ ∈ elementPlaces around trace ∧ head.name = ElementName.data ∧
      Lacks head.tag ElementName.data AttributeName.key

/-- What stands behind an element stands in the whole. -/
theorem DueToData.of_leaveOut {resolved : Resolved} {start : Nat} {content rest : Trace Resolved}
    {tag : Tag} {uri? : Option Bytes} {isEmpty : Bool} {around : List Element}
    (opening : contentOf resolved = .ok (.opening tag uri? isEmpty))
    (left : leaveOut isEmpty content = .ok rest) (dueTo : DueToData around error rest) :
    DueToData around error (.item resolved start content) := by
  obtain ⟨same, head, member, lacks⟩ := dueTo
  have inside := elementPlaces_suffix_of_leaveOut left (elementOf tag uri?) around
  refine ⟨same, head, ?_, lacks⟩
  rw [elementPlaces_opening opening]
  exact List.mem_cons_of_mem _ (inside.mem member)

/-- An absence that is reported while data are read is due to a data element among them. -/
theorem dueToData_of_readData {trace : Trace Resolved}
    (failed : readData namespace? codec element owner trace = .error error)
    (absence : IsAbsence error) (around : List Element) : DueToData around error trace := by
  have plain : IsPlain ElementName.data := by decide
  fun_induction readData namespace? codec element owner trace with
  | case1 =>
    cases failed
    cases absence
  | case2 =>
    cases failed
    cases absence
  | case3 owner resolved start rest error' unread =>
    cases failed
    exact absurd absence (isOfMarkup_of_contentOf unread).isOfLayout.not_isAbsence
  | case4 owner resolved start content tag uri? isEmpty opening named error' fails =>
    cases failed
    obtain ⟨same, lacks⟩ := lacks_of_readDataElement fails absence
    refine ⟨same, elementOf tag uri?, ?_, ((isNamed_elementOf_iff plain).mpr named).2, lacks⟩
    rw [elementPlaces_opening opening]
    exact List.mem_cons_self
  | case5 owner resolved start content tag uri? isEmpty opening named owner' rest first ih =>
    have skips := (readDataElement_readsPast first).skips
    refine .of_leaveOut opening ?_ (ih failed)
    cases isEmpty <;> exact skips
  | case6 owner resolved start content tag uri? other opening ih =>
    exact .of_leaveOut opening rfl (ih failed)
  | case7 owner resolved start content tag uri? isEmpty opening other open_ error' fails =>
    cases failed
    exact absurd absence (isOfLayout_of_skip fails).not_isAbsence
  | case8 owner resolved start content tag uri? isEmpty opening other open_ rest skipped ih =>
    refine .of_leaveOut opening ?_ (ih failed)
    rw [leaveOut, if_neg open_]
    exact skipped
  | case9 => cases failed
  | case10 owner resolved start rest text leaf ih =>
    rw [DueToData, elementPlaces_leaf (event_of_contentOf leaf)]
    exact ih failed
  | case11 owner resolved start rest leaf ih =>
    rw [DueToData, elementPlaces_leaf (event_of_contentOf leaf)]
    exact ih failed

/-- An absence that is reported while an instance is read is due to data in its element. -/
theorem dueTo_of_readOwner {V : Type} {vertices : VertexTable V} {child : ChildElement}
    (failed : readOwner namespace? codec element child.isEmpty owner child.content = .error error)
    (absence : IsAbsence error) (around : List Element)
    (named : child.head.name = ElementName.node ∨ child.head.name = ElementName.edge) :
    DueTo vertices around child error := by
  rw [readOwner] at failed
  split at failed
  · cases failed
  · rename_i open_
    obtain ⟨rfl, head, member, data, lacks⟩ :=
      dueToData_of_readData failed absence (child.head :: around)
    refine .data named ?_ data lacks
    rw [ChildElement.places, if_neg open_]
    exact member

end

section

variable {V E A : Type} {codecs : Codecs V E A} {factories : Factories V E}
  {namespace? : Option Bytes} {vertices : VertexTable V} {child : ChildElement} {error : Error}

theorem dueTo_of_readNode
    (failed : readNode codecs factories namespace? child.tag child.isEmpty child.content =
      .error error)
    (absence : IsAbsence error) (named : child.head.name = ElementName.node)
    (around : List Element) : DueTo vertices around child error := by
  simp only [readNode, bind_eq_error_iff] at failed
  rcases failed with missing | ⟨id, -, failed | ⟨_, -, failed⟩⟩
  · obtain rfl := eq_of_requiredText_eq_error missing absence
    exact .child named missing
  · exact dueTo_of_readOwner failed absence around (.inl named)
  · exact absurd failed pure_ne_error

/-- An end that is not known is due to the edge that names it. -/
theorem dueTo_of_vertexOf {attributeName id : String}
    (failed : vertexOf vertices id = .error error) (named : child.head.name = ElementName.edge)
    (isEnd : attributeName ∈ [AttributeName.source, AttributeName.target])
    (refers : requiredText child.tag ElementName.edge attributeName = .ok id)
    (around : List Element) : DueTo vertices around child error := by
  rw [vertexOf] at failed
  split at failed
  · cases failed
  · cases failed
    exact .vertex named isEnd refers ‹_›

theorem dueTo_of_readEdge
    (failed : readEdge codecs factories namespace? vertices child.tag child.isEmpty child.content =
      .error error)
    (absence : IsAbsence error) (named : child.head.name = ElementName.edge)
    (around : List Element) : DueTo vertices around child error := by
  simp only [readEdge, bind_eq_error_iff] at failed
  rcases failed with missing | ⟨id, -, missing | ⟨sourceId, source, missing |
    ⟨targetId, target, unknown | ⟨_, -, unknown | ⟨_, -, failed | ⟨_, -, failed⟩⟩⟩⟩⟩⟩
  · obtain rfl := eq_of_requiredText_eq_error missing absence
    exact .child named missing
  · obtain rfl := eq_of_requiredText_eq_error missing absence
    exact .child named missing
  · obtain rfl := eq_of_requiredText_eq_error missing absence
    exact .child named missing
  · exact dueTo_of_vertexOf unknown named List.mem_cons_self source around
  · exact dueTo_of_vertexOf unknown named (List.mem_cons_of_mem _ List.mem_cons_self) target
      around
  · exact dueTo_of_readOwner failed absence around (.inr named)
  · exact absurd failed pure_ne_error

theorem dueTo_of_readGraphData
    (failed : (readGraphData child.tag child.isEmpty child.content :
      Except Error (Child V E × Trace Resolved)) = .error error)
    (absence : IsAbsence error) (named : child.head.name = ElementName.data)
    (around : List Element) : DueTo vertices around child error := by
  simp only [readGraphData, bind_eq_error_iff] at failed
  rcases failed with missing | ⟨key, -, unread | ⟨_, -, failed⟩⟩
  · obtain rfl := eq_of_requiredText_eq_error missing absence
    exact .child named missing
  · exact absurd absence (isOfLayout_of_elementText unread).not_isAbsence
  · exact absurd failed pure_ne_error

/-- An absence that is reported while a child of the graph element is read is due to the child. -/
theorem dueTo_of_readChild
    (failed : readChild codecs factories namespace? vertices child.tag child.isEmpty child.content =
      .error error)
    (absence : IsAbsence error) (around : List Element) : DueTo vertices around child error := by
  rw [readChild] at failed
  split at failed
  · cases failed
    cases absence
  · rename_i name decoded
    have shown : child.head.name = name := shownName_eq_of_decodeUtf8_eq decoded
    split at failed
    · exact dueTo_of_readNode failed absence (shown.trans ‹_›) around
    split at failed
    · exact dueTo_of_readEdge failed absence (shown.trans ‹_›) around
    split at failed
    · exact dueTo_of_readGraphData failed absence (shown.trans ‹_›) around
    · cases failed
      cases absence

variable {G : Type} [Target G V E A] [HasOwnReasons G]

theorem not_isAbsence_of_addChild {child : Child V E} {filling filling' : Filling G V}
    (refused : addChild codecs child filling = (.error error, filling')) : ¬ IsAbsence error := by
  cases child with
  | node id vertex => cases refused
  | edge edge =>
    simp only [addChild, Prod.mk.injEq] at refused
    exact HasOwnReasons.not_isAbsence edge filling.graph (map_eq_error_iff.mp refused.1)
  | data key text =>
    rw [addChild] at refused
    split at refused
    · cases refused
    · cases refused
      exact id

/-- An absence that stops a child from having its effect is due to the child, which is of the
vocabulary. -/
theorem dueTo_of_childEffect {filling : Filling G V}
    (failed : childEffect codecs factories namespace? filling child = .error error)
    (absence : IsAbsence error) (around : List Element) :
    child.uri? = namespace? ∧ DueTo filling.vertices around child error := by
  rw [childEffect] at failed
  split at failed
  · rename_i named
    rw [bind_eq_error_iff] at failed
    rcases failed with failed | ⟨⟨added, rest⟩, -, failed⟩
    · exact ⟨named, dueTo_of_readChild failed absence around⟩
    · dsimp only at failed
      rcases refused : addChild codecs added filling with ⟨result, filling'⟩
      rw [refused] at failed
      dsimp only at failed
      rw [bind_eq_error_iff] at failed
      rcases failed with failed | ⟨_, -, failed⟩
      · cases failed
        exact absurd absence (not_isAbsence_of_addChild refused)
      · exact absurd failed pure_ne_error
  · rw [bind_eq_error_iff] at failed
    rcases failed with failed | ⟨_, -, failed⟩
    · exact absurd absence (isOfLayout_of_leaveOut failed).not_isAbsence
    · exact absurd failed pure_ne_error

/-- An absence that ends the reading of a document is due to a child of the graph element, which is
met behind the effects of the children in front of it. -/
theorem exists_dueTo_of_readTrace {trace : Trace Resolved} {before : G}
    (failed : (readTrace codecs factories trace before).1 = .error error)
    (absence : IsAbsence error) :
    ∃ namespace? children count filling child, graphElement? trace = some (namespace?, children) ∧
      (children.take count).foldlM (childEffect codecs factories namespace?)
        ⟨applyGraphDefaults codecs.graph before, []⟩ = .ok filling ∧
      children[count]? = some child ∧ child.uri? = namespace? ∧
        ∀ around, DueTo filling.vertices around child error := by
  cases found : graphElement? trace with
  | none => exact absurd absence (isOfLayout_of_graphElement?_eq_none found failed).not_isAbsence
  | some element =>
    obtain ⟨namespace?, children⟩ := element
    obtain ⟨count, filling, stops, -⟩ := readTrace_stopsAt codecs factories found before
    cases next : children[count]? with
    | none => exact absurd absence (stops.markup next error failed).isOfLayout.not_isAbsence
    | some child =>
      obtain ⟨error', fails, reported⟩ := stops.error child next
      cases failed.symm.trans reported
      have due := dueTo_of_childEffect fails absence
      exact ⟨namespace?, children, count, filling, child, rfl, stops.effects, next, (due []).1,
        fun around => (due around).2⟩

end

end GraphMarkup.Document
