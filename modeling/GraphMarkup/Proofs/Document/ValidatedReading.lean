import GraphMarkup.Proofs.Document.Absences
import GraphMarkup.Proofs.Schema.GraphSchema

/-!
# Reading valid documents

The validator looks for attributes by their local names and checks nothing inside data
elements. The reader looks for attributes by their whole keys and takes the first graph
element wherever it stands. Where this makes no difference, what the validator has seen is
what the reader finds: no attribute is absent that elements must have, and no vertex either if
the nodes of the graph stand in front of its edges.
-/

namespace GraphMarkup.Document

open GraphMarkup.Attributes
open GraphMarkup.Graph
open GraphMarkup.Markup
open GraphMarkup.Schema
open GraphMarkup.Text
open GraphMarkup.Validation

/-- The attributes that nodes, edges and data must have, behind the names of their elements. -/
def requiredAttributes : List (String × String) :=
  [(ElementName.node, AttributeName.id), (ElementName.edge, AttributeName.source),
    (ElementName.edge, AttributeName.target), (ElementName.data, AttributeName.key)]

/-- No attribute with a qualifier has the local name of one that elements must have. -/
def KeepsApart (head : Element) : Prop :=
  ∀ found ∈ head.attributes, declaredName? found.key = none → qualifier? found.key ≠ none →
    shownName (localName found.key) ∉ requiredAttributes.map Prod.snd

instance (head : Element) : Decidable (KeepsApart head) :=
  inferInstanceAs (Decidable (∀ found ∈ head.attributes, declaredName? found.key = none →
    qualifier? found.key ≠ none →
      shownName (localName found.key) ∉ requiredAttributes.map Prod.snd))

/-- None of the elements is a data element. -/
def OutsideData (ancestors : List Element) : Prop :=
  ∀ ancestor ∈ ancestors, ancestor.name ≠ ElementName.data

instance (ancestors : List Element) : Decidable (OutsideData ancestors) :=
  inferInstanceAs (Decidable (∀ ancestor ∈ ancestors, ancestor.name ≠ ElementName.data))

/-- The first graph element in a document. -/
def graphPlace? (trace : Trace Resolved) : Option ElementPlace :=
  (elementPlaces [] trace).find? fun place =>
    IsNamed (some (encodeUtf8 namespaceName)) ElementName.graph place.head

/-- All nodes in a document are children of the graph element that is read, and none of them stands
behind an edge there. -/
def NodesFirst (trace : Trace Resolved) : Prop :=
  ∀ graph ∈ graphElement? trace,
    (∀ place ∈ elementPlaces [] trace, IsNamed graph.1 ElementName.node place.head →
      ∃ child ∈ graph.2, child.head = place.head) ∧
    graph.2.Pairwise fun first second => IsNamed graph.1 ElementName.edge first.head →
      ¬ IsNamed graph.1 ElementName.node second.head

instance (trace : Trace Resolved) : Decidable (NodesFirst trace) :=
  inferInstanceAs (Decidable (∀ graph ∈ graphElement? trace, _ ∧ _))

/-! ## Looking attributes up -/

/-- What an attribute is looked up by where qualifiers make no difference. -/
theorem key_eq_iff {found : Attribute} {name : String} (readable : found.IsReadable)
    (apart : declaredName? found.key = none → qualifier? found.key ≠ none →
      shownName (localName found.key) ≠ name)
    (plain : encodeUtf8 name = bytesOf name) (isLocal : localName (bytesOf name) = bytesOf name)
    (undeclared : declaredName? (bytesOf name) = none) :
    found.key = bytesOf name ↔ found.namedValue? = some (name, textOf found.value) := by
  rw [Attribute.namedValue?]
  constructor
  · intro same
    have shown : shownName (bytesOf name) = name := by
      rw [← plain]
      exact shownName_eq_of_decodeUtf8_eq (decodeUtf8_encodeUtf8 name)
    rw [same, undeclared, isLocal, shown]
    rfl
  · intro named
    split at named
    · cases named
    · rename_i declares
      have declared := Option.not_isSome_iff_eq_none.mp declares
      have shown : shownName (localName found.key) = name :=
        congrArg Prod.fst (Option.some.inj named)
      have unqualified : qualifier? found.key = none := by
        by_contra qualified
        exact apart declared qualified shown
      obtain ⟨⟨text, decoded⟩, -⟩ := readable declared
      rw [localName_of_qualifier?_eq_none unqualified] at decoded shown
      rw [decodeUtf8_eq_ok_iff.mp decoded, ← plain, ← shown, shownName_eq_of_decodeUtf8_eq decoded]

theorem lookup_namedValue?_eq {attributes : List Attribute} {name : String}
    (keyed : ∀ found ∈ attributes,
      (found.key = bytesOf name ↔ found.namedValue? = some (name, textOf found.value))) :
    (attributes.filterMap Attribute.namedValue?).lookup name =
      (attributes.find? (·.key = bytesOf name)).map fun found => textOf found.value := by
  induction attributes with
  | nil => rfl
  | cons found rest ih =>
    obtain ⟨first, others⟩ := List.forall_mem_cons.mp keyed
    by_cases same : found.key = bytesOf name
    · have found? : (found :: rest).find? (·.key = bytesOf name) = some found :=
        List.find?_cons_of_pos (decide_eq_true same)
      rw [List.filterMap_cons_some (first.mp same), List.lookup_cons_self, found?, Option.map_some]
    · have found? : (found :: rest).find? (·.key = bytesOf name) =
          rest.find? (·.key = bytesOf name) :=
        List.find?_cons_of_neg (by simpa using same)
      rw [found?, ← ih others]
      cases named : found.namedValue? with
      | none => rw [List.filterMap_cons_none named]
      | some entry =>
        obtain ⟨other, value⟩ := entry
        have text : value = textOf found.value := by
          rw [Attribute.namedValue?] at named
          split at named
          · cases named
          · exact (congrArg Prod.snd (Option.some.inj named)).symm
        have different : (name == other) = false := by
          rw [beq_eq_false_iff_ne]
          rintro rfl
          exact same (first.mpr (text ▸ named))
        rw [List.filterMap_cons_some named, List.lookup_cons, different]

/-- Where qualifiers make no difference, the reader finds the attributes that the validator sees. -/
theorem value?_eq_attribute? {head : Element} (readable : head.HasReadableAttributes)
    (apart : KeepsApart head) {name : String} (required : name ∈ requiredAttributes.map Prod.snd) :
    head.value? name = head.attribute? name := by
  have written : ∀ name ∈ requiredAttributes.map Prod.snd, IsPlain name ∧
      localName (bytesOf name) = bytesOf name ∧ declaredName? (bytesOf name) = none := by
    decide
  obtain ⟨plain, isLocal, undeclared⟩ := written name required
  refine lookup_namedValue?_eq fun found member => ?_
  refine key_eq_iff (readable.readable found member) ?_ plain.encodeUtf8_eq isLocal undeclared
  intro declared qualified same
  exact apart found member declared qualified (same ▸ required)

theorem requiredText_of_complete {head : Element}
    (complete : (head.tag.attributes true).error? = none) (element attributeName : String) :
    (Lacks head.tag element attributeName → head.attribute? attributeName = none) ∧
      ∀ text, requiredText head.tag element attributeName = .ok text →
        head.attribute? attributeName = some text := by
  rw [Lacks, requiredText, Tag.attribute?_of_complete complete, Element.attribute?,
    Element.attributes]
  cases (head.tag.attributes true).found.find? (·.key = bytesOf attributeName) with
  | none => simp
  | some found =>
    constructor
    · intro lacks
      obtain ⟨cause, -, same⟩ := mapError_eq_error_iff.mp lacks
      cases same
    · intro text read
      exact congrArg some (textOf_eq_of_rawText_eq (mapError_eq_ok_iff.mp read))

/-! ## What is known of accepted documents -/

theorem isChecked_graphSchema_iff {ancestors : List Element} :
    IsChecked graphSchema ancestors ↔ OutsideData ancestors := by
  have only : ∀ entry ∈ graphSchema.elements,
      entry.2.anyChildren = true → entry.1 = ElementName.data := by
    decide
  have data : (graphSchema.element? ElementName.data).any (·.anyChildren) = true := by
    decide
  refine forall_congr' fun ancestor => forall_congr' fun _ => ?_
  rw [takesAnything]
  constructor
  · rintro nothing same
    rw [same, data] at nothing
    cases nothing
  · intro other
    rw [← Bool.not_eq_true, Option.any_eq_true]
    rintro ⟨declaration, found, anything⟩
    obtain ⟨front, behind, same, -⟩ := List.lookup_eq_some_iff.mp found
    refine other (only (ancestor.name, declaration) ?_ anything)
    rw [same]
    exact List.mem_append_right _ List.mem_cons_self

/-- What the validator has seen of a document that it accepts, as far as qualifiers make no
difference. -/
structure Seen (trace : Trace Resolved) : Prop where
  conform : ∀ place ∈ elementPlaces [] trace, OutsideData place.ancestors →
    Conforms graphSchema place
  apart : ∀ place ∈ elementPlaces [] trace, OutsideData place.ancestors → KeepsApart place.head
  /-- The ends of edges are ids of nodes. -/
  resolved : ∀ attributeName ∈ [AttributeName.source, AttributeName.target],
    ∀ edge ∈ elementPlaces [] trace, OutsideData edge.ancestors →
      edge.head.name = ElementName.edge → ∀ id, edge.head.value? attributeName = some id →
        ∃ node ∈ elementPlaces [] trace, OutsideData node.ancestors ∧
          node.head.name = ElementName.node ∧ node.head.value? AttributeName.id = some id

theorem seen_of_validateWith {document : Bytes}
    (accepted : validateWith Resolver.embedded {} document = .ok ())
    (apart : ∀ place ∈ elementPlaces [] (Markup.read document), OutsideData place.ancestors →
      KeepsApart place.head) : Seen (Markup.read document) := by
  have loaded : load Resolver.embedded ({} : Settings).schema = .ok graphSchema := load_embedded
  rw [validateWith, loaded] at accepted
  obtain ⟨conform, resolved⟩ := (validate_eq_ok_iff_accepts.mp accepted).conform
  refine ⟨fun place member outside => ?_, apart, ?_⟩
  · exact conform place member (isChecked_graphSchema_iff.mpr outside)
  · intro attributeName isEnd edge member outside named id has
    have reference : ⟨"node.id.key", ElementName.edge, attributeName⟩ ∈ graphSchema.references := by
      simp only [List.mem_cons, List.not_mem_nil, or_false] at isEnd
      rcases isEnd with rfl | rfl <;> decide
    have made : id ∈ valuesAt ElementName.edge attributeName
        (checkedHeads graphSchema (elementPlaces [] (Markup.read document))) := by
      rw [valuesAt, List.mem_filterMap]
      refine ⟨edge.head, mem_checkedHeads_iff.mpr ⟨edge, member,
        isChecked_graphSchema_iff.mpr outside, rfl⟩, ?_⟩
      rw [valueAt?, if_pos named.symm]
      exact has
    have known := resolved _ reference ⟨"node.id.key", ElementName.node, AttributeName.id⟩ rfl id
      made
    rw [valuesAt, List.mem_filterMap] at known
    obtain ⟨head, listed, value⟩ := known
    obtain ⟨node, member', checked, rfl⟩ := mem_checkedHeads_iff.mp listed
    rw [valueAt?] at value
    split at value
    · exact ⟨node, member', isChecked_graphSchema_iff.mp checked, Eq.symm ‹_›, value⟩
    · cases value

namespace Seen

variable {trace : Trace Resolved} {place : ElementPlace}

/-- Elements have the attributes that they must have. -/
theorem not_lacks (seen : Seen trace) (member : place ∈ elementPlaces [] trace)
    (outside : OutsideData place.ancestors) {element attributeName : String}
    (required : (element, attributeName) ∈ requiredAttributes)
    (named : place.head.name = element) : ¬ Lacks place.head.tag element attributeName := by
  intro lacks
  have conforms := seen.conform place member outside
  have demanded : ∀ entry ∈ requiredAttributes, ∃ declaration ∈ graphSchema.element? entry.1,
      entry.2 ∈ declaration.required ∧ unqualified entry.2 = entry.2 := by
    decide
  obtain ⟨declaration, declared, listed, same⟩ := demanded _ required
  rw [← named] at declared
  have has := conforms.valid.required declaration declared attributeName listed
  rw [same, value?_eq_attribute? conforms.readable (seen.apart place member outside)
    (List.mem_map.mpr ⟨_, required, rfl⟩),
    (requiredText_of_complete conforms.readable.complete element attributeName).1 lacks] at has
  cases has

/-- What the reader looks up is what the validator has seen. -/
theorem value?_of_requiredText (seen : Seen trace) (member : place ∈ elementPlaces [] trace)
    (outside : OutsideData place.ancestors) {element attributeName text : String}
    (required : attributeName ∈ requiredAttributes.map Prod.snd)
    (read : requiredText place.head.tag element attributeName = .ok text) :
    place.head.value? attributeName = some text := by
  have conforms := seen.conform place member outside
  rw [value?_eq_attribute? conforms.readable (seen.apart place member outside) required]
  exact (requiredText_of_complete conforms.readable.complete element attributeName).2 text read

end Seen

/-! ## The graph element of accepted documents -/

/-- The first element of a document stands in no other. -/
theorem ancestors_eq_nil_of_first {trace : Trace Resolved} {place : ElementPlace}
    {others : List ElementPlace} (first : elementPlaces [] trace = place :: others) :
    place.ancestors = [] := by
  induction trace with
  | ended => cases first
  | failed error start stop => cases first
  | item resolved start rest ih =>
    rw [elementPlaces] at first
    split at first
    · cases first
      rfl
    · cases first
      rfl
    · exact ih first
    · exact ih first

/-- The root that the reader finds in an accepted document is its first element, in the
namespace of the validator. -/
theorem Seen.places_of_root {trace behind : Trace Resolved} (seen : Seen trace)
    {namespace? : Option Bytes} (found : findRoot trace = .ok (namespace?, behind)) :
    some (encodeUtf8 namespaceName) = namespace? ∧ ∃ root,
      elementPlaces [] trace = ⟨[], root⟩ :: elementPlaces [root] behind ∧
        root.name = ElementName.graphml := by
  obtain ⟨front, outer, root, same, named, others⟩ := places_of_findRoot found []
  -- The first element of the document is its root, so none is passed over.
  have first : front = [] := by
    cases front with
    | nil => rfl
    | cons place front =>
      have top := ancestors_eq_nil_of_first same
      have member : place ∈ elementPlaces [] trace := by
        rw [same]
        exact List.mem_cons_self
      have conforms := seen.conform place member (top ▸ List.forall_mem_nil _)
      exact absurd (conforms.root top) (others place List.mem_cons_self)
  subst first
  have top : outer = [] := ancestors_eq_nil_of_first same
  subst top
  have member : ⟨[], root⟩ ∈ elementPlaces [] trace := by
    rw [same]
    exact List.mem_cons_self
  have conforms := seen.conform _ member (List.forall_mem_nil _)
  exact ⟨conforms.belongs.inTarget.symm.trans named.1, root, same, named.2⟩

/-- Where the reader finds the graph element of an accepted document, and its children. -/
theorem Seen.places_of_graphElement? {trace : Trace Resolved} (seen : Seen trace)
    {namespace? : Option Bytes} {children : List ChildElement}
    (found : graphElement? trace = some (namespace?, children)) :
    some (encodeUtf8 namespaceName) = namespace? ∧ ∃ around graph,
      graphPlace? trace = some ⟨around, graph⟩ ∧ ∀ child ∈ children,
        ⟨graph :: around, child.head⟩ :: child.places (graph :: around) <:+
          elementPlaces [] trace := by
  obtain ⟨behind, isEmpty, content, root, search, rfl⟩ := exists_of_graphElement? found
  obtain ⟨target, head, same, named⟩ := seen.places_of_root root
  obtain ⟨around, graph, place, inside⟩ := places_of_findGraph search [head]
  refine ⟨target, around, graph, ?_, fun child listed => ?_⟩
  · have other : ¬ IsNamed (some (encodeUtf8 namespaceName)) ElementName.graph head := by
      rintro ⟨-, graph⟩
      rw [named] at graph
      revert graph
      decide
    rw [graphPlace?, same, List.find?_cons_of_neg, target]
    · exact place
    · exact fun holds => other (of_decide_eq_true holds)
  · cases isEmpty with
    | true => cases listed
    | false =>
      have within := places_of_mem_childElements listed (graph :: around)
      rw [same]
      exact (within.trans inside).trans (List.suffix_cons _ _)

/-! ## The vertices that are known -/

section

variable {V E A G : Type} [Target G V E A] {codecs : Codecs V E A} {factories : Factories V E}
  {namespace? : Option Bytes} {child : ChildElement} {filling filling' : Filling G V}

/-- Vertices that are known stay known. -/
theorem lookup_isSome_of_childEffect {id : String}
    (taken : childEffect codecs factories namespace? filling child = .ok filling')
    (known : (filling.vertices.lookup id).isSome) : (filling'.vertices.lookup id).isSome := by
  rw [childEffect] at taken
  split at taken
  · simp only [bind_eq_ok_iff, pure_eq_ok_iff] at taken
    obtain ⟨⟨added, rest⟩, -, -, -, rfl⟩ := taken
    cases added with
    | node other vertex =>
      change (((other, vertex) :: filling.vertices).lookup id).isSome
      rw [List.lookup_cons]
      split
      · rfl
      · exact known
    | edge edge => exact known
    | data key text =>
      dsimp only
      rw [addChild]
      split <;> exact known
  · simp only [bind_eq_ok_iff, pure_eq_ok_iff] at taken
    obtain ⟨-, -, rfl⟩ := taken
    exact known

/-- The vertex of a node is known behind it. -/
theorem exists_lookup_of_childEffect
    (taken : childEffect codecs factories namespace? filling child = .ok filling')
    (named : IsNamed namespace? ElementName.node child.head) :
    ∃ id, requiredText child.tag ElementName.node AttributeName.id = .ok id ∧
      (filling'.vertices.lookup id).isSome := by
  have uri : child.uri? = namespace? :=
    (namespace?_elementOf child.tag child.uri?).symm.trans named.1
  rw [childEffect, if_pos uri] at taken
  simp only [bind_eq_ok_iff, pure_eq_ok_iff] at taken
  obtain ⟨⟨added, rest⟩, read, -, -, rfl⟩ := taken
  rw [readChild] at read
  split at read
  · cases read
  · rename_i name decoded
    have shown : name = ElementName.node :=
      (shownName_eq_of_decodeUtf8_eq decoded).symm.trans named.2
    rw [if_pos shown, readNode] at read
    simp only [bind_eq_ok_iff, pure_eq_ok_iff] at read
    obtain ⟨id, found, ⟨vertex, rest⟩, -, ⟨⟩⟩ := read
    refine ⟨id, found, ?_⟩
    change (((id, vertex) :: filling.vertices).lookup id).isSome
    rw [List.lookup_cons_self]
    rfl

/-- Vertices that are known stay known behind any children. -/
theorem lookup_isSome_of_effects {id : String} {children : List ChildElement}
    (taken : children.foldlM (childEffect codecs factories namespace?) filling = .ok filling')
    (known : (filling.vertices.lookup id).isSome) : (filling'.vertices.lookup id).isSome := by
  induction children generalizing filling with
  | nil =>
    cases taken
    exact known
  | cons first others ih =>
    rw [List.foldlM_cons, bind_eq_ok_iff] at taken
    obtain ⟨next, step, rest⟩ := taken
    exact ih rest (lookup_isSome_of_childEffect step known)

/-- The vertices of all nodes are known behind them. -/
theorem exists_lookup_of_effects {children : List ChildElement}
    (taken : children.foldlM (childEffect codecs factories namespace?) filling = .ok filling')
    (member : child ∈ children) (named : IsNamed namespace? ElementName.node child.head) :
    ∃ id, requiredText child.tag ElementName.node AttributeName.id = .ok id ∧
      (filling'.vertices.lookup id).isSome := by
  induction children generalizing filling with
  | nil => cases member
  | cons first others ih =>
    rw [List.foldlM_cons, bind_eq_ok_iff] at taken
    obtain ⟨next, step, rest⟩ := taken
    rcases List.mem_cons.mp member with rfl | behind
    · obtain ⟨id, found, known⟩ := exists_lookup_of_childEffect step named
      exact ⟨id, found, lookup_isSome_of_effects rest known⟩
    · exact ih rest behind

end

/-! ## Absences in accepted documents -/

/-- What stands in a graph element outside data stands outside data. -/
theorem outsideData_of_graphPlace? {trace : Trace Resolved} {around : List Element}
    {graph : Element} (place : graphPlace? trace = some ⟨around, graph⟩)
    (outside : OutsideData around) : OutsideData (graph :: around) := by
  have found := List.find?_some place
  have named : IsNamed (some (encodeUtf8 namespaceName)) ElementName.graph graph :=
    of_decide_eq_true found
  refine List.forall_mem_cons.mpr ⟨fun data => ?_, outside⟩
  have same := named.2.symm.trans data
  revert same
  decide

/-- A node that stands behind no edge stands in front of each. -/
theorem mem_take_of_pairwise {namespace? : Option Bytes} {children : List ChildElement}
    {count : Nat} {edge node : ChildElement}
    (nodesFirst : children.Pairwise fun first second =>
      IsNamed namespace? ElementName.edge first.head →
        ¬ IsNamed namespace? ElementName.node second.head)
    (next : children[count]? = some edge) (member : node ∈ children)
    (isEdge : IsNamed namespace? ElementName.edge edge.head)
    (isNode : IsNamed namespace? ElementName.node node.head) : node ∈ children.take count := by
  rw [← List.take_append_drop count children, List.mem_append] at member
  refine member.resolve_right fun behind => ?_
  obtain ⟨bound, found⟩ := List.getElem?_eq_some_iff.mp next
  rw [List.drop_eq_getElem_cons bound, found] at behind
  have ordered := nodesFirst.sublist (List.drop_sublist count children)
  rw [List.drop_eq_getElem_cons bound, found] at ordered
  rcases List.mem_cons.mp behind with rfl | behind
  · have same := isEdge.2.symm.trans isNode.2
    revert same
    decide
  · exact (List.pairwise_cons.mp ordered).1 node behind isEdge isNode

namespace Seen

variable {trace : Trace Resolved} {around : List Element} {child : ChildElement}

/-- A child that is reported for lacking an attribute need not have it. -/
theorem ne_missingAttribute (seen : Seen trace) (outside : OutsideData around)
    (within : ⟨around, child.head⟩ :: child.places around <:+ elementPlaces [] trace) {V : Type}
    {vertices : VertexTable V} {error : Error} (due : DueTo vertices around child error) :
    ∀ entry ∈ requiredAttributes, error ≠ .missingAttribute entry.1 entry.2 := by
  rintro ⟨element, attributeName⟩ required rfl
  have member : ⟨around, child.head⟩ ∈ elementPlaces [] trace := within.mem List.mem_cons_self
  cases due with
  | child named lacks => exact seen.not_lacks member outside required named lacks
  | @data head owner inside named lacks =>
    have member' : ⟨child.head :: around, head⟩ ∈ elementPlaces [] trace :=
      within.mem (List.mem_cons_of_mem _ inside)
    have outside' : OutsideData (child.head :: around) := by
      refine List.forall_mem_cons.mpr ⟨fun data => ?_, outside⟩
      rw [data] at owner
      revert owner
      decide
    exact seen.not_lacks member' outside' required named lacks

/-- The ends of a child that is an edge are ids of nodes in the document. -/
theorem exists_node (seen : Seen trace) (outside : OutsideData around)
    (member : ⟨around, child.head⟩ ∈ elementPlaces [] trace)
    (named : child.head.name = ElementName.edge) {attributeName id : String}
    (isEnd : attributeName ∈ [AttributeName.source, AttributeName.target])
    (refers : requiredText child.tag ElementName.edge attributeName = .ok id) :
    ∃ node ∈ elementPlaces [] trace, OutsideData node.ancestors ∧
      IsNamed (some (encodeUtf8 namespaceName)) ElementName.node node.head ∧
        node.head.value? AttributeName.id = some id := by
  have required : ∀ name ∈ [AttributeName.source, AttributeName.target],
      name ∈ requiredAttributes.map Prod.snd := by
    decide
  have value := seen.value?_of_requiredText member outside (required _ isEnd) refers
  obtain ⟨node, member', outside', isNode, has⟩ :=
    seen.resolved attributeName isEnd _ member outside named id value
  exact ⟨node, member', outside', ⟨(seen.conform node member' outside').belongs.inTarget, isNode⟩,
    has⟩

/-- Where the nodes stand in front of the edges, no child of the graph element is reported for
having an end that is not known. -/
theorem ne_vertexNotFound (seen : Seen trace) (nodesFirst : NodesFirst trace)
    {children : List ChildElement}
    (found : graphElement? trace = some (some (encodeUtf8 namespaceName), children))
    (outside : OutsideData around) (member : ⟨around, child.head⟩ ∈ elementPlaces [] trace)
    {V E A G : Type} [Target G V E A] {codecs : Codecs V E A} {factories : Factories V E}
    {filling filling' : Filling G V} {count : Nat}
    (effects : (children.take count).foldlM
      (childEffect codecs factories (some (encodeUtf8 namespaceName))) filling = .ok filling')
    (next : children[count]? = some child)
    (uri : child.uri? = some (encodeUtf8 namespaceName)) {error : Error}
    (due : DueTo filling'.vertices around child error) : ∀ id, error ≠ .vertexNotFound id := by
  rintro id rfl
  cases due with
  | @vertex attributeName id named isEnd refers unknown =>
    obtain ⟨node, listed, nodeOutside, isNode, has⟩ :=
      seen.exists_node outside member named isEnd refers
    obtain ⟨nodes, pairwise⟩ := nodesFirst _ found
    obtain ⟨other, otherListed, same⟩ := nodes node listed isNode
    rw [← same] at isNode
    -- The node stands in front of the edge, so its vertex is known.
    have front : other ∈ children.take count :=
      mem_take_of_pairwise pairwise next otherListed
        ⟨(namespace?_elementOf _ _).trans uri, named⟩ isNode
    obtain ⟨id', read, known⟩ := exists_lookup_of_effects effects front isNode
    have required : AttributeName.id ∈ requiredAttributes.map Prod.snd := by
      decide
    have tag : other.tag = node.head.tag := congrArg Element.tag same
    rw [tag] at read
    have value := seen.value?_of_requiredText listed nodeOutside required read
    cases has.symm.trans value
    rw [unknown] at known
    cases known

end Seen

section

variable {V E A G : Type} [Target G V E A] [HasOwnReasons G]

/-- Reading a document that the validator accepts does not fail for want of an attribute that nodes,
edges and data must have, and if the nodes stand in front of the edges, not for want of a vertex
either. Attributes with a qualifier must not go by the local names of those attributes, and the
graph element that is read must stand where the validator checks. The graph that is read onto may
be any that does not refuse edges for such a reason itself. -/
theorem read_of_validateWith (type : GraphType V E A) (factories : Factories V E)
    {document : Bytes} (accepted : validateWith Resolver.embedded {} document = .ok ())
    (apart : ∀ place ∈ elementPlaces [] (Markup.read document), OutsideData place.ancestors →
      KeepsApart place.head)
    (outside : ∀ place ∈ graphPlace? (Markup.read document), OutsideData place.ancestors)
    (before : G) :
    (∀ entry ∈ requiredAttributes,
      (read type factories document before).1 ≠ .error (.missingAttribute entry.1 entry.2)) ∧
    (NodesFirst (Markup.read document) → ∀ id,
      (read type factories document before).1 ≠ .error (.vertexNotFound id)) := by
  have seen := seen_of_validateWith accepted apart
  rw [read]
  cases type.compile with
  | error cause =>
    constructor
    · intro entry required failed
      cases failed
    · intro nodesFirst id failed
      cases failed
  | ok codecs =>
    dsimp only
    constructor
    · intro entry required failed
      obtain ⟨namespace?, children, count, filling, child, found, -, next, -, due⟩ :=
        exists_dueTo_of_readTrace failed trivial
      obtain ⟨-, around, graph, place, within⟩ := seen.places_of_graphElement? found
      have inside := within child (List.mem_of_getElem? next)
      have outside' := outsideData_of_graphPlace? place (outside _ place)
      exact seen.ne_missingAttribute outside' inside (due _) entry required rfl
    · intro nodesFirst id failed
      obtain ⟨namespace?, children, count, filling, child, found, effects, next, uri, due⟩ :=
        exists_dueTo_of_readTrace failed trivial
      obtain ⟨target, around, graph, place, within⟩ := seen.places_of_graphElement? found
      have inside := within child (List.mem_of_getElem? next)
      have outside' := outsideData_of_graphPlace? place (outside _ place)
      cases target
      exact seen.ne_vertexNotFound nodesFirst found outside' (inside.mem List.mem_cons_self)
        effects next uri (due _) id rfl

end

section

open GraphMarkup.Sample

/-- A graph document with the given markup in its root. -/
def graphDocument (markup : List String) : Bytes :=
  (["<graphml", " xmlns=\"", namespaceName, "\">"] ++ markup ++ ["</graphml>"]).flatMap bytesOf

/-- A document with a node and an edge from the node to itself. -/
def loopDocument : Bytes :=
  graphDocument ["<graph edgedefault=\"directed\">", "<node id=\"a\"/>",
    "<edge id=\"l\" source=\"a\" target=\"a\"/>", "</graph>"]

/-- Documents that pass the checks of graph documents are accepted. -/
theorem validateWith_of_validate {document : Bytes}
    (valid : validate Resolver.embedded {} graphSchema document = .ok ()) :
    validateWith Resolver.embedded {} document = .ok () := by
  have loaded : load Resolver.embedded ({} : Settings).schema = .ok graphSchema := load_embedded
  rw [validateWith, loaded]
  exact valid

/-- The node and the edge of that document are read if nothing else is wrong with them. -/
theorem read_loopDocument :
    validateWith Resolver.embedded {} loopDocument = .ok () ∧
      (∀ place ∈ elementPlaces [] (Markup.read loopDocument), OutsideData place.ancestors →
        KeepsApart place.head) ∧
      (∀ place ∈ graphPlace? (Markup.read loopDocument), OutsideData place.ancestors) ∧
      NodesFirst (Markup.read loopDocument) ∧
      ∀ before : AdjacencyGraph Town Road Network,
        (∀ entry ∈ requiredAttributes, (read roadGraphType roadFactories loopDocument before).1 ≠
          .error (.missingAttribute entry.1 entry.2)) ∧
        ∀ id, (read roadGraphType roadFactories loopDocument before).1 ≠
          .error (.vertexNotFound id) := by
  have holds : validate Resolver.embedded {} graphSchema loopDocument = .ok () ∧
      (∀ place ∈ elementPlaces [] (Markup.read loopDocument), OutsideData place.ancestors →
        KeepsApart place.head) ∧
      (∀ place ∈ graphPlace? (Markup.read loopDocument), OutsideData place.ancestors) ∧
      NodesFirst (Markup.read loopDocument) := by
    decide +kernel
  obtain ⟨valid, apart, outside, nodesFirst⟩ := holds
  have accepted := validateWith_of_validate valid
  refine ⟨accepted, apart, outside, nodesFirst, fun before => ?_⟩
  obtain ⟨attributes, vertices⟩ :=
    read_of_validateWith roadGraphType roadFactories accepted apart outside before
  exact ⟨attributes, vertices nodesFirst⟩

/-- A document whose graph element stands in data, with the given markup in it. -/
def uncheckedDocument (markup : List String) : Bytes :=
  graphDocument (["<key id=\"k\"/>", "<data key=\"k\">", "<graph>"] ++ markup ++
    ["</graph>", "</data>"])

/-- A document with a node whose id has a qualifier. -/
def qualifiedDocument : Bytes :=
  graphDocument ["<graph edgedefault=\"directed\">", "<node xmlns:x=\"u\" x:id=\"a\"/>", "</graph>"]

/-- Without its conditions the statement fails: inside data a node needs no id and an edge no nodes,
and elsewhere the id of a node may have a qualifier. -/
theorem read_uncheckedDocument :
    let nameless := uncheckedDocument ["<node/>"]
    let dangling := uncheckedDocument ["<edge id=\"e\" source=\"a\" target=\"b\"/>"]
    (validateWith Resolver.embedded {} nameless = .ok () ∧
      (read roadGraphType roadFactories nameless noTowns).1 =
        .error (.missingAttribute ElementName.node AttributeName.id)) ∧
    (validateWith Resolver.embedded {} dangling = .ok () ∧ NodesFirst (Markup.read dangling) ∧
      (read roadGraphType roadFactories dangling noTowns).1 = .error (.vertexNotFound "a")) ∧
    (validateWith Resolver.embedded {} qualifiedDocument = .ok () ∧
      (read roadGraphType roadFactories qualifiedDocument noTowns).1 =
        .error (.missingAttribute ElementName.node AttributeName.id)) := by
  intro nameless dangling
  have first : validate Resolver.embedded {} graphSchema nameless = .ok () ∧
      (read roadGraphType roadFactories nameless noTowns).1 =
        .error (.missingAttribute ElementName.node AttributeName.id) := by
    decide +kernel
  have second : validate Resolver.embedded {} graphSchema dangling = .ok () ∧
      NodesFirst (Markup.read dangling) ∧
      (read roadGraphType roadFactories dangling noTowns).1 = .error (.vertexNotFound "a") := by
    decide +kernel
  have third : validate Resolver.embedded {} graphSchema qualifiedDocument = .ok () ∧
      (read roadGraphType roadFactories qualifiedDocument noTowns).1 =
        .error (.missingAttribute ElementName.node AttributeName.id) := by
    decide +kernel
  exact ⟨⟨validateWith_of_validate first.1, first.2⟩,
    ⟨validateWith_of_validate second.1, second.2⟩,
    ⟨validateWith_of_validate third.1, third.2⟩⟩

end

end GraphMarkup.Document
