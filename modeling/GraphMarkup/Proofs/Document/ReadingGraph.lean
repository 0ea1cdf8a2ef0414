import GraphMarkup.Proofs.Document.ReadingTree
import GraphMarkup.Sample.Roads

/-!
# Reading computes the meaning of a document

The loops of the reader are put together: the search for the graph element
passes over everything in front of it at whatever depth, its children are added
one by one, and what stands behind it is only read to the end. So reading a
well-formed document gives its meaning.
-/

namespace GraphMarkup.Document

open GraphMarkup.Attributes
open GraphMarkup.Markup
open GraphMarkup.Text

/-- What is left of a well-formed document is read without a failure of its own. -/
theorem drain_of_reads {trace last : Trace Resolved} {nodes : List Node}
    (reads : Reads trace nodes last) (wellFormed : Forest.WellFormed nodes) :
    drain trace = drain last := by
  refine reads_induction
    (motive := fun trace nodes last => Forest.WellFormed nodes → drain trace = drain last)
    ?nil ?leaf ?element reads wellFormed
  case nil =>
    intro trace _
    rfl
  case leaf =>
    intro event start rest last nodes isLeaf ih wellFormed
    rw [← ih wellFormed.2, drain]
    rcases contentOf_leaf isLeaf wellFormed.1 with read | ⟨read, _⟩ <;> simp only [read]
  case element =>
    intro head isEmpty start content rest last children nodes inside _ ih wellFormed
    rw [← ih wellFormed.2, drain]
    simp only [contentOf_tagEvent wellFormed.1.1]
    cases inside with
    | empty => rfl
    | content holds =>
      rw [holds.2 wellFormed.1.2, drain]
      simp only [contentOf_closing wellFormed.1.1]

/-- Behind an element, the rest of the document is read as in front of its end
tag. -/
theorem drain_closing {head : Element} (wellFormed : head.WellFormed) (name : Bytes)
    (stop : Nat) (rest : Trace Resolved) :
    drain (.item ⟨head.resolution, .closing name⟩ stop rest) = drain rest := by
  rw [drain]
  simp only [contentOf_closing wellFormed]

section

variable {V E A : Type} {codecs : Codecs V E A} {factories : Factories V E}
  {namespace? : Option Bytes}

/-- Reading a child of the graph element gives what the tree says of it. -/
theorem readChild_of_inside {head : Element} {isEmpty : Bool}
    {content rest : Trace Resolved} {children : List Node}
    (inside : Inside Reads head isEmpty content children rest)
    (wellFormed : (Node.element head children).WellFormed) (vertices : VertexTable V) :
    readChild codecs factories namespace? vertices head.tag isEmpty content =
      (do
        let child ← meaningOfChild codecs factories namespace? vertices head children
        pure (child, rest)) := by
  rcases wellFormed.1.named with ⟨name, decoded⟩
  have named : head.name = name := shownName_eq_of_decodeUtf8_eq decoded
  simp only [readChild, decoded, meaningOfChild, named]
  split
  · simp only [readNode, requiredText_of_wellFormed wellFormed.1,
      readOwner_of_inside inside wellFormed, bind_assoc, pure_bind]
  split
  · simp only [readEdge, requiredText_of_wellFormed wellFormed.1,
      readOwner_of_inside inside wellFormed, bind_assoc, pure_bind]
  split
  · simp only [readGraphData, requiredText_of_wellFormed wellFormed.1,
      elementText_of_inside inside wellFormed, bind_assoc, pure_bind]
    rfl
  · rfl

variable {G : Type} [Target G V E A]

/-- At a tag the reader of children adds a child or leaves an element out, and
goes on behind the element. -/
theorem readChildren_item_opening {resolved : Resolved} {tag : Tag}
    {found? : Option Bytes} {isEmpty : Bool}
    (opening : contentOf resolved = .ok (.opening tag found? isEmpty))
    (filling : Filling G V) (start : Nat) (content : Trace Resolved) :
    readChildren codecs factories namespace? filling (.item resolved start content) =
      if found? = namespace? then
        match readChild codecs factories namespace? filling.vertices tag isEmpty content with
        | .error error => (.error error, filling.graph)
        | .ok (child, rest) =>
            match addChild codecs child filling with
            | (.error error, filling) => (.error error, filling.graph)
            | (.ok (), filling) => readChildren codecs factories namespace? filling rest
      else
        match if isEmpty then .ok content else skip 0 content with
        | .error error => (.error error, filling.graph)
        | .ok rest => readChildren codecs factories namespace? filling rest := by
  rw [readChildren]
  simp only [opening]
  split
  · cases readChild codecs factories namespace? filling.vertices tag isEmpty content <;> rfl
  · cases isEmpty with
    | true => rfl
    | false => cases skip 0 content <;> rfl

theorem readChildren_closing {head : Element} (wellFormed : head.WellFormed)
    (filling : Filling G V) (name : Bytes) (stop : Nat) (rest : Trace Resolved) :
    readChildren codecs factories namespace? filling
        (.item ⟨head.resolution, .closing name⟩ stop rest) = (.ok rest, filling.graph) := by
  rw [readChildren]
  simp only [contentOf_closing wellFormed]

/-- Reading the children of the graph element follows the tree: it stops where the
tree says, or goes on behind the forest with the graph that the tree says. -/
theorem readChildren_of_reads {trace last : Trace Resolved} {nodes : List Node}
    (reads : Reads trace nodes last) (wellFormed : Forest.WellFormed nodes)
    (filling : Filling G V) :
    readChildren codecs factories namespace? filling trace =
      match meaningOfChildren codecs factories namespace? filling nodes with
      | (.error error, filling) => (.error error, filling.graph)
      | (.ok (), filling) => readChildren codecs factories namespace? filling last := by
  refine reads_induction
    (motive := fun trace nodes last => Forest.WellFormed nodes → ∀ filling : Filling G V,
      readChildren codecs factories namespace? filling trace =
        match meaningOfChildren codecs factories namespace? filling nodes with
        | (.error error, filling) => (.error error, filling.graph)
        | (.ok (), filling) => readChildren codecs factories namespace? filling last)
    ?nil ?leaf ?element reads wellFormed filling
  case nil =>
    intro trace _ filling
    rfl
  case leaf =>
    intro event start rest last nodes isLeaf ih wellFormed filling
    rw [readChildren, meaningOfChildren, ← ih wellFormed.2]
    rcases contentOf_leaf isLeaf wellFormed.1 with read | ⟨read, _⟩ <;> simp only [read]
  case element =>
    intro head isEmpty start content rest last children nodes inside _ ih wellFormed filling
    rw [readChildren_item_opening (contentOf_tagEvent wellFormed.1.1 isEmpty),
      readChild_of_inside (inside.imp And.left) wellFormed.1,
      skip_of_inside inside And.left, meaningOfChildren]
    split
    · cases meaningOfChild codecs factories namespace? filling.vertices head children with
      | error error => rfl
      | ok child =>
        simp only [bind, Except.bind, pure, Except.pure]
        rcases addChild codecs child filling with ⟨result, extended⟩
        cases result with
        | error error => rfl
        | ok => exact ih wellFormed.2 extended
    · exact ih wellFormed.2 filling

end

/-! ## The search for the graph element -/

/-- The first graph element is the element itself, or it stands in the element, or
behind it. -/
theorem graphContent?_element_cons (namespace? : Option Bytes) (ancestors : List Element)
    (head : Element) (children nodes : List Node) :
    graphContent? namespace? (Forest.places ancestors (.element head children :: nodes)) =
      if IsNamed namespace? ElementName.graph head then some children
      else
        (graphContent? namespace? (Forest.places (head :: ancestors) children)).or
          (graphContent? namespace? (Forest.places ancestors nodes)) := by
  by_cases named : IsNamed namespace? ElementName.graph head
  · simp [graphContent?, Forest.places, Node.places, contentIfNamed?, named]
  · simp [graphContent?, Forest.places, Node.places, contentIfNamed?, named,
      List.findSome?_append]

theorem graphContent?_leaf_cons (namespace? : Option Bytes) (ancestors : List Element)
    (event : Event) (nodes : List Node) :
    graphContent? namespace? (Forest.places ancestors (.leaf event :: nodes)) =
      graphContent? namespace? (Forest.places ancestors nodes) :=
  rfl

/-- Where the search for the graph element ends: it passes over a forest without
one, and otherwise stops behind the tag of the first one. -/
def SearchEnds (namespace? : Option Bytes) (trace last : Trace Resolved) :
    Option (List Node) → Prop
  | none => findGraph namespace? trace = findGraph namespace? last
  | some children =>
      ∃ head isEmpty content rest, Inside Reads head isEmpty content children rest ∧
        (Node.element head children).WellFormed ∧
        findGraph namespace? trace = .ok (isEmpty, content) ∧ drain rest = drain last

/-- The search goes on in an element, and then behind it. -/
theorem SearchEnds.or {namespace? : Option Bytes} {trace middle last : Trace Resolved}
    {inside? behind? : Option (List Node)} (first : SearchEnds namespace? trace middle inside?)
    (second : SearchEnds namespace? middle last behind?) (drained : drain middle = drain last) :
    SearchEnds namespace? trace last (inside?.or behind?) := by
  cases inside? with
  | some children =>
    rcases first with ⟨head, isEmpty, content, rest, inside, wellFormed, found, last⟩
    exact ⟨head, isEmpty, content, rest, inside, wellFormed, found, last.trans drained⟩
  | none =>
    cases behind? with
    | none => exact Eq.trans first second
    | some children =>
      rcases second with ⟨head, isEmpty, content, rest, inside, wellFormed, found, last⟩
      exact ⟨head, isEmpty, content, rest, inside, wellFormed, Eq.trans first found, last⟩

/-- What the search passes over does not change where it ends. -/
theorem SearchEnds.of_findGraph_eq {namespace? : Option Bytes}
    {trace trace' last : Trace Resolved} {found? : Option (List Node)}
    (passed : findGraph namespace? trace = findGraph namespace? trace')
    (ends : SearchEnds namespace? trace' last found?) :
    SearchEnds namespace? trace last found? := by
  cases found? with
  | none => exact passed.trans ends
  | some children =>
    rcases ends with ⟨head, isEmpty, content, rest, inside, wellFormed, found, drained⟩
    exact ⟨head, isEmpty, content, rest, inside, wellFormed, passed.trans found, drained⟩

theorem findGraph_closing {namespace? : Option Bytes} {head : Element}
    (wellFormed : head.WellFormed) (name : Bytes) (stop : Nat) (rest : Trace Resolved) :
    findGraph namespace? (.item ⟨head.resolution, .closing name⟩ stop rest) =
      findGraph namespace? rest := by
  rw [findGraph]
  simp only [contentOf_closing wellFormed]

/-- The search for the graph element follows the tree. -/
theorem findGraph_of_reads {namespace? : Option Bytes} {trace last : Trace Resolved}
    {nodes : List Node} (reads : Reads trace nodes last)
    (wellFormed : Forest.WellFormed nodes) (ancestors : List Element) :
    SearchEnds namespace? trace last
      (graphContent? namespace? (Forest.places ancestors nodes)) := by
  refine reads_induction
    (motive := fun trace nodes last => Forest.WellFormed nodes → ∀ ancestors,
      SearchEnds namespace? trace last
        (graphContent? namespace? (Forest.places ancestors nodes)))
    ?nil ?leaf ?element reads wellFormed ancestors
  case nil =>
    intro trace _ ancestors
    exact rfl
  case leaf =>
    intro event start rest last nodes isLeaf ih wellFormed ancestors
    refine .of_findGraph_eq ?_ (ih wellFormed.2 ancestors)
    rw [findGraph]
    rcases contentOf_leaf isLeaf wellFormed.1 with read | ⟨read, _⟩ <;> simp only [read]
  case element =>
    intro head isEmpty start content rest last children nodes inside behind ih wellFormed
      ancestors
    have drained := drain_of_reads behind wellFormed.2
    have step : findGraph namespace?
        (.item ⟨head.resolution, tagEvent head.tag isEmpty⟩ start content) =
          if IsNamed namespace? ElementName.graph head then .ok (isEmpty, content)
          else findGraph namespace? content := by
      rw [findGraph]
      simp only [contentOf_tagEvent wellFormed.1.1,
        isNamed_iff wellFormed.1.1 namespace? (by decide : IsPlain ElementName.graph)]
    rw [graphContent?_element_cons]
    split
    · rename_i named
      rw [if_pos named] at step
      exact ⟨head, isEmpty, content, rest, inside.imp And.left, wellFormed.1, step, drained⟩
    · rename_i other
      rw [if_neg other] at step
      have within : SearchEnds namespace? content rest
          (graphContent? namespace? (Forest.places (head :: ancestors) children)) := by
        cases inside with
        | empty => exact rfl
        | @content _ _ _ stop holds =>
          have closed : SearchEnds namespace? (.item ⟨head.resolution,
              .closing head.tag.name⟩ stop rest) rest none :=
            findGraph_closing wellFormed.1.1 _ _ _
          simpa only [Option.or_none] using
            (holds.2 wellFormed.1.2 (head :: ancestors)).or closed
              (drain_closing wellFormed.1.1 _ _ _)
      exact .of_findGraph_eq step (within.or (ih wellFormed.2 ancestors) drained)

/-- The search for the root element ends behind the tag of a document's root,
behind which no other element follows. -/
theorem findRoot_of_reads {trace last : Trace Resolved} {nodes : List Node}
    (reads : Reads trace nodes last) (wellFormed : Forest.WellFormed nodes)
    {root : Element} {children : List Node} (roots : Forest.roots nodes = [(root, children)])
    (named : root.name = ElementName.graphml) :
    ∃ isEmpty content rest back, Inside Reads root isEmpty content children rest ∧
      (Node.element root children).WellFormed ∧
      findRoot trace =
        (if isEmpty then .error .graphNotFound else .ok (root.namespace?, content)) ∧
      Reads rest back last ∧ Forest.WellFormed back ∧ Forest.roots back = [] := by
  refine reads_induction
    (motive := fun trace nodes last => Forest.WellFormed nodes →
      Forest.roots nodes = [(root, children)] →
      ∃ isEmpty content rest back, Inside Reads root isEmpty content children rest ∧
        (Node.element root children).WellFormed ∧
        findRoot trace =
          (if isEmpty then .error .graphNotFound else .ok (root.namespace?, content)) ∧
        Reads rest back last ∧ Forest.WellFormed back ∧ Forest.roots back = [])
    ?nil ?leaf ?element reads wellFormed roots
  case nil =>
    intro trace _ roots
    cases roots
  case leaf =>
    intro event start rest last nodes isLeaf ih wellFormed roots
    have passed : findRoot (.item ⟨.unbound, event⟩ start rest) = findRoot rest := by
      rw [findRoot]
      rcases contentOf_leaf isLeaf wellFormed.1 with read | ⟨read, _⟩ <;> simp only [read]
    rw [passed]
    exact ih wellFormed.2 roots
  case element =>
    intro head isEmpty start content rest last children' nodes inside behind _ wellFormed roots
    simp only [Forest.roots_element_cons, List.cons.injEq, Prod.mk.injEq] at roots
    rcases roots with ⟨⟨rfl, rfl⟩, others⟩
    refine ⟨isEmpty, content, rest, nodes, inside.imp And.left, wellFormed.1, ?_, behind,
      wellFormed.2, others⟩
    have tagged := (hasName_iff wellFormed.1.1
      (by decide : IsPlain ElementName.graphml)).mpr named
    rw [findRoot]
    simp only [contentOf_tagEvent wellFormed.1.1, if_pos tagged]

theorem graphContent?_of_roots_eq_nil {namespace? : Option Bytes} {ancestors : List Element}
    {nodes : List Node} (roots : Forest.roots nodes = []) :
    graphContent? namespace? (Forest.places ancestors nodes) = none := by
  induction nodes with
  | nil => rfl
  | cons node nodes ih =>
    cases node with
    | element head children => cases roots
    | leaf event =>
      rw [graphContent?_leaf_cons]
      exact ih roots

section

variable {V E A G : Type} [Target G V E A]

/-- Reading the events of a well-formed document whose root is a graphml element
gives the graph and the result that its tree says. -/
theorem readTrace_eq_meaning (codecs : Codecs V E A) (factories : Factories V E)
    {trace : Trace Resolved} {nodes : List Node} (reads : Reads trace nodes .ended)
    (wellFormed : Forest.WellFormed nodes) {root : Element} {children : List Node}
    (roots : Forest.roots nodes = [(root, children)])
    (named : root.name = ElementName.graphml) (graph : G) :
    readTrace codecs factories trace graph = meaning codecs factories root children graph := by
  rcases findRoot_of_reads reads wellFormed roots named with
    ⟨isEmpty, content, rest, back, inside, rootWellFormed, found, behind, backWellFormed,
      backRoots⟩
  rw [readTrace, found, meaning]
  cases inside with
  | empty => rfl
  | @content content rest children stop holds =>
    -- Behind the root the search finds nothing, and reading comes to the end.
    have missed : findGraph root.namespace?
        (.item ⟨root.resolution, .closing root.tag.name⟩ stop rest) = .error .graphNotFound := by
      have ends : SearchEnds root.namespace? _ _ _ :=
        findGraph_of_reads behind backWellFormed []
      rw [graphContent?_of_roots_eq_nil backRoots] at ends
      rw [findGraph_closing rootWellFormed.1]
      exact ends
    have drained : drain (.item ⟨root.resolution, .closing root.tag.name⟩ stop rest) =
        .ok () := by
      rw [drain_closing rootWellFormed.1, drain_of_reads behind backWellFormed]
      rfl
    have ends : SearchEnds root.namespace? _ _ _ :=
      findGraph_of_reads holds rootWellFormed.2 [root]
    rw [if_neg Bool.false_ne_true]
    dsimp only
    revert ends
    cases graphContent? root.namespace? (Forest.places [root] children) with
    | none =>
      intro ends
      rw [ends, missed]
    | some nodes =>
      rintro ⟨head, isEmpty, content, rest', inside, wellFormed, search, last⟩
      rw [search]
      dsimp only
      cases inside with
      | empty =>
        rw [if_pos rfl, last, drained]
        rfl
      | content holds =>
        rw [if_neg Bool.false_ne_true, readChildren_of_reads holds wellFormed.2]
        rcases meaningOfChildren codecs factories root.namespace?
          ⟨applyGraphDefaults codecs.graph graph, []⟩ nodes with ⟨result, filling⟩
        cases result with
        | error error => rfl
        | ok =>
          dsimp only
          rw [readChildren_closing wellFormed.1]
          dsimp only
          rw [last, drained]

/-- Reading a well-formed document whose root is a graphml element gives the graph and the
result that its tree says. -/
theorem read_eq_meaning (type : GraphType V E A) {codecs : Codecs V E A}
    (compiled : type.compile = .ok codecs) (factories : Factories V E) {document : Bytes}
    {nodes : List Node} (describes : Describes document nodes)
    (wellFormed : Forest.WellFormed nodes) {root : Element} {children : List Node}
    (roots : Forest.roots nodes = [(root, children)])
    (named : root.name = ElementName.graphml) (graph : G) :
    read type factories document graph = meaning codecs factories root children graph := by
  rw [read, compiled]
  exact readTrace_eq_meaning codecs factories describes wellFormed roots named graph

end

section

open GraphMarkup.Graph
open GraphMarkup.Sample

/-- A document in which other elements stand in front of the graph element and of a town,
and in which the data of the town contain a reference and a comment. -/
def townDocument : Bytes :=
  bytesOf ("<graphml><x:graph xmlns:x='u'/><graph><x:b xmlns:x='u'><node/></x:b>" ++
    "<node id='a'><data key='Size'>&#55;<!----></data></node></graph></graphml>")

/-- An element in no namespace, given by the content of its tag. -/
def plainElement (content : String) : Element :=
  ⟨⟨bytesOf content⟩, .unbound⟩

/-- The content of the root element of the document with the town. -/
def townChildren : List Node :=
  [.element ⟨⟨bytesOf "x:graph xmlns:x='u'"⟩, .bound (bytesOf "u")⟩ [],
    .element (plainElement "graph")
      [.element ⟨⟨bytesOf "x:b xmlns:x='u'"⟩, .bound (bytesOf "u")⟩
          [.element (plainElement "node") []],
        .element (plainElement "node id='a'")
          [.element (plainElement "data key='Size'")
            [.leaf (.text (bytesOf "&#55;")), .leaf (.comment [])]]]]

/-- A town is read from among elements of another vocabulary. -/
theorem read_eq_meaning_townDocument :
    ∃ codecs, roadGraphType.compile = .ok codecs ∧
      Describes townDocument [.element (plainElement "graphml") townChildren] ∧
      Forest.WellFormed [.element (plainElement "graphml") townChildren] ∧
      (plainElement "graphml").name = ElementName.graphml ∧
      ∀ graph : AdjacencyGraph Town Road Network,
        read roadGraphType roadFactories townDocument graph =
          meaning codecs roadFactories (plainElement "graphml") townChildren graph := by
  have compiled : ∃ codecs, roadGraphType.compile = .ok codecs := ⟨_, rfl⟩
  rcases compiled with ⟨codecs, compiled⟩
  have describes : Describes townDocument [.element (plainElement "graphml") townChildren] := by
    decide +kernel
  have wellFormed : Forest.WellFormed [.element (plainElement "graphml") townChildren] := by
    decide +kernel
  have named : (plainElement "graphml").name = ElementName.graphml := by
    decide +kernel
  exact ⟨codecs, compiled, describes, wellFormed, named,
    read_eq_meaning roadGraphType compiled roadFactories describes wellFormed rfl named⟩

end

end GraphMarkup.Document
