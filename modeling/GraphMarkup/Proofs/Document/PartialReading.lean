import GraphMarkup.Proofs.Document.Unclosed

/-!
# What a failed reading leaves

Children of the graph element are read one after the other. Each of them has its whole
effect on the graph or none, so whatever ends the reading, the graph is what the children
in front of the failure make of it, and a document that has no graph element to be reached
leaves the graph as it was. Nothing takes a vertex or an edge away that is in the graph.
-/

namespace GraphMarkup.Document

open GraphMarkup.Attributes
open GraphMarkup.Graph
open GraphMarkup.Markup
open GraphMarkup.Text

/-! ## The children of the graph element -/

/-- An element of the graph element's content with the namespace that it is in, if it is in one, and
the trace behind its tag. -/
structure ChildElement where
  tag : Tag
  uri? : Option Bytes
  isEmpty : Bool
  content : Trace Resolved

theorem leaveOut_length_le {isEmpty : Bool} {content rest : Trace Resolved}
    (left : leaveOut isEmpty content = .ok rest) : rest.length ≤ content.length := by
  cases isEmpty with
  | true =>
    cases left
    exact Nat.le_refl _
  | false => exact Nat.le_of_lt (skip_length_lt left)

/-- The elements of the content that a trace begins with. It ends with an end tag, with the input,
or at markup that cannot be read. -/
def childElements (trace : Trace Resolved) : List ChildElement :=
  match trace with
  | .ended => []
  | .failed .. => []
  | .item resolved _ rest =>
      match contentOf resolved with
      | .error _ => []
      | .ok (.opening tag namespace? isEmpty) =>
          ⟨tag, namespace?, isEmpty, rest⟩ ::
            match _left : leaveOut isEmpty rest with
            | .error _ => []
            | .ok rest' => childElements rest'
      | .ok .closing => []
      | .ok (.text _) => childElements rest
      | .ok .other => childElements rest
termination_by trace.length
decreasing_by
  · have := leaveOut_length_le _left
    simp only [Trace.length]
    omega
  all_goals simp [Trace.length]

theorem childElements_item_opening {resolved : Resolved} {tag : Tag} {found? : Option Bytes}
    {isEmpty : Bool} (opening : contentOf resolved = .ok (.opening tag found? isEmpty))
    (start : Nat) (content : Trace Resolved) :
    childElements (.item resolved start content) =
      ⟨tag, found?, isEmpty, content⟩ ::
        match leaveOut isEmpty content with
        | .error _ => []
        | .ok rest => childElements rest := by
  rw [childElements]
  simp only [opening]
  cases leaveOut isEmpty content <;> rfl

/-- Reading a child ends where leaving it out ends. -/
theorem leaveOut_of_readChild {V E A : Type} {codecs : Codecs V E A} {factories : Factories V E}
    {namespace? : Option Bytes} {vertices : VertexTable V} {tag : Tag} {isEmpty : Bool}
    {content rest : Trace Resolved} {child : Child V E}
    (read : readChild codecs factories namespace? vertices tag isEmpty content =
      .ok (child, rest)) :
    leaveOut isEmpty content = .ok rest := by
  have skips := (readChild_readsPast read).skips
  cases isEmpty <;> exact skips

/-- The namespace that a document is read in, and the elements of its graph element. Nothing if the
graph element is not reached. -/
def graphElement? (trace : Trace Resolved) : Option (Option Bytes × List ChildElement) :=
  match findRoot trace with
  | .error _ => none
  | .ok (namespace?, behind) =>
      match findGraph namespace? behind with
      | .error _ => none
      | .ok (isEmpty, content) =>
          some (namespace?, if isEmpty then [] else childElements content)

/-- A graph element that is reached stands behind a root. -/
theorem exists_of_graphElement? {trace : Trace Resolved} {namespace? : Option Bytes}
    {children : List ChildElement}
    (found : graphElement? trace = some (namespace?, children)) :
    ∃ behind isEmpty content, findRoot trace = .ok (namespace?, behind) ∧
      findGraph namespace? behind = .ok (isEmpty, content) ∧
        children = if isEmpty then [] else childElements content := by
  rw [graphElement?] at found
  split at found
  · cases found
  · rename_i uri? behind root
    split at found
    · cases found
    · rename_i isEmpty content search
      cases found
      exact ⟨behind, isEmpty, content, root, search, rfl⟩

/-! ## Effects of children -/

section

variable {V E A G : Type} [Target G V E A]

/-- What a graph that is being filled is behind an element of the graph element's content: it has a
child more that is read as a whole, or is as before if the element is of another vocabulary. -/
def childEffect (codecs : Codecs V E A) (factories : Factories V E) (namespace? : Option Bytes)
    (filling : Filling G V) (element : ChildElement) : Except Error (Filling G V) :=
  if element.uri? = namespace? then do
    let (child, _) ← readChild codecs factories namespace? filling.vertices element.tag
      element.isEmpty element.content
    let (added, filling) := addChild codecs child filling
    added
    pure filling
  else do
    let _ ← leaveOut element.isEmpty element.content
    pure filling

/-! ## Taking the children in order -/

/-- An error about how a document is spelled, and not about what it says. -/
def IsOfMarkup : Error → Prop
  | .markup _ => True
  | .undeclaredQualifier _ => True
  | .encoding _ => True
  | _ => False

theorem isOfMarkup_of_contentOf {resolved : Resolved} {error : Error}
    (unread : contentOf resolved = .error error) : IsOfMarkup error := by
  obtain ⟨resolution, event⟩ := resolved
  rw [contentOf, bind_eq_error_iff] at unread
  rcases unread with undeclared | ⟨uri?, -, unread⟩
  · cases resolution <;> cases undeclared
    trivial
  · cases event with
    | text raw =>
      rw [map_eq_error_iff, mapError_eq_error_iff] at unread
      obtain ⟨cause, -, rfl⟩ := unread
      trivial
    | cdata content =>
      rw [map_eq_error_iff, mapError_eq_error_iff] at unread
      obtain ⟨cause, -, rfl⟩ := unread
      trivial
    | _ => cases unread

/-- What is left of a document can only be misspelled. -/
theorem isOfMarkup_of_drain {trace : Trace Resolved} {error : Error}
    (failed : drain trace = .error error) : IsOfMarkup error := by
  fun_induction drain trace with
  | case1 => cases failed
  | case2 =>
    cases failed
    trivial
  | case3 resolved start rest error' unread =>
    cases failed
    exact isOfMarkup_of_contentOf unread
  | case4 resolved start rest content read ih => exact ih failed

/-- Elements are taken in order up to a place where no more of them are: the first `count` have
their effects, and the next one, if there is one, has none and gives the error. If there is none, no
error is about an element. -/
structure StopsAt {R : Type} (codecs : Codecs V E A) (factories : Factories V E)
    (namespace? : Option Bytes) (elements : List ChildElement) (before : Filling G V)
    (result : Except Error R) (count : Nat) (filling : Filling G V) : Prop where
  le_length : count ≤ elements.length
  effects : (elements.take count).foldlM (childEffect codecs factories namespace?) before =
    .ok filling
  error : ∀ element, elements[count]? = some element →
    ∃ error, childEffect codecs factories namespace? filling element = .error error ∧
      result = .error error
  markup : elements[count]? = none → ∀ error, result = .error error → IsOfMarkup error

variable {R : Type} {codecs : Codecs V E A} {factories : Factories V E}
  {namespace? : Option Bytes} {elements : List ChildElement} {element : ChildElement}
  {before filling : Filling G V} {result : Except Error R}

namespace StopsAt

/-- There is nothing to be taken. -/
theorem nil (markup : ∀ error, result = .error error → IsOfMarkup error) :
    StopsAt codecs factories namespace? [] before result 0 before where
  le_length := Nat.le_refl 0
  effects := rfl
  error _ same := by
    cases same
  markup _ := markup

/-- The first element has no effect. -/
theorem fails {error : Error}
    (fails : childEffect codecs factories namespace? before element = .error error) :
    StopsAt (R := R) codecs factories namespace? (element :: elements) before (.error error) 0
      before where
  le_length := Nat.zero_le _
  effects := rfl
  error _ same := by
    cases same
    exact ⟨error, fails, rfl⟩
  markup none := by
    cases none

/-- The first element has its effect, and the others are taken behind it. -/
theorem cons {next : Filling G V} {count : Nat}
    (taken : childEffect codecs factories namespace? before element = .ok next)
    (stops : StopsAt codecs factories namespace? elements next result count filling) :
    StopsAt codecs factories namespace? (element :: elements) before result (count + 1)
      filling where
  le_length := Nat.succ_le_succ stops.le_length
  effects := by
    rw [List.take_succ_cons, List.foldlM_cons, taken]
    exact stops.effects
  error other same := stops.error other same
  markup none := stops.markup none

end StopsAt

/-- Edges that a graph refuses leave it as it is. -/
def IsSteady (G : Type) {V E A : Type} [Target G V E A] : Prop :=
  ∀ (edge : E) (graph : G) (error : Error),
    (Target.addEdge edge graph).1 = .error error → (Target.addEdge edge graph).2 = graph

/-- A child that is not added leaves the graph as it is. -/
theorem addChild_error (steady : IsSteady G) {child : Child V E} {error : Error}
    {filling' : Filling G V} (refused : addChild codecs child filling = (.error error, filling')) :
    filling' = filling := by
  cases child with
  | node id vertex => cases refused
  | edge edge =>
    simp only [addChild, Prod.mk.injEq] at refused
    obtain ⟨reason, rfl⟩ := refused
    rw [steady edge filling.graph error (map_eq_error_iff.mp reason)]
  | data key text =>
    rw [addChild] at refused
    split at refused
    · cases refused
    · cases refused
      rfl

/-- The reader of children takes the elements of the content in order. If refused edges make no
difference, the graph is as their effects leave it. -/
theorem readChildren_stopsAt (codecs : Codecs V E A) (factories : Factories V E)
    (namespace? : Option Bytes) (before : Filling G V) (trace : Trace Resolved) :
    ∃ count filling, StopsAt codecs factories namespace? (childElements trace) before
        (readChildren codecs factories namespace? before trace).1 count filling ∧
      (IsSteady G →
        (readChildren codecs factories namespace? before trace).2 = filling.graph) := by
  fun_induction readChildren codecs factories namespace? before trace with
  | case1 before =>
    rw [childElements]
    refine ⟨0, before, .nil ?_, fun _ => rfl⟩
    rintro _ ⟨⟩
  | case2 before error =>
    rw [childElements]
    refine ⟨0, before, .nil ?_, fun _ => rfl⟩
    rintro _ ⟨⟩
    trivial
  | case3 before resolved start rest error unread =>
    rw [childElements, unread]
    refine ⟨0, before, .nil ?_, fun _ => rfl⟩
    rintro _ ⟨⟩
    exact isOfMarkup_of_contentOf unread
  | case4 before resolved start content tag isEmpty error fails opening =>
    rw [childElements_item_opening opening]
    refine ⟨0, before, .fails ?_, fun _ => rfl⟩
    rw [childEffect, if_pos rfl, fails]
    rfl
  | case5 before resolved start content tag isEmpty child rest read error filling refused opening =>
    rw [childElements_item_opening opening]
    refine ⟨0, before, .fails ?_, fun steady => ?_⟩
    · rw [childEffect, if_pos rfl, read]
      simp only [bind, Except.bind, refused]
    · rw [addChild_error steady refused]
  | case6 before resolved start content tag isEmpty child rest read filling added opening ih =>
    obtain ⟨count, filled, stops, graph⟩ := ih
    rw [childElements_item_opening opening, leaveOut_of_readChild read]
    refine ⟨count + 1, filled, .cons ?_ stops, graph⟩
    rw [childEffect, if_pos rfl, read]
    simp only [bind, Except.bind, added]
    rfl
  | case7 before resolved start content tag found? other opening ih =>
    obtain ⟨count, filled, stops, graph⟩ := ih
    rw [childElements_item_opening opening]
    refine ⟨count + 1, filled, .cons ?_ stops, graph⟩
    rw [childEffect, if_neg other]
    rfl
  | case8 before resolved start content tag found? isEmpty opening other open_ error fails =>
    rw [childElements_item_opening opening]
    refine ⟨0, before, .fails ?_, fun _ => rfl⟩
    rw [childEffect, if_neg other, leaveOut, if_neg open_, fails]
    rfl
  | case9 before resolved start content tag found? isEmpty opening other open_ rest skipped ih =>
    obtain ⟨count, filled, stops, graph⟩ := ih
    have left : leaveOut isEmpty content = .ok rest := by
      rw [leaveOut, if_neg open_]
      exact skipped
    rw [childElements_item_opening opening, left]
    refine ⟨count + 1, filled, .cons ?_ stops, graph⟩
    rw [childEffect, if_neg other, left]
    rfl
  | case10 before resolved start rest closing =>
    rw [childElements, closing]
    refine ⟨0, before, .nil ?_, fun _ => rfl⟩
    rintro _ ⟨⟩
  | case11 before resolved start rest text leaf ih =>
    rw [childElements]
    simp only [leaf]
    exact ih
  | case12 before resolved start rest leaf ih =>
    rw [childElements]
    simp only [leaf]
    exact ih

/-- What stands behind the graph element makes no difference to the graph. -/
theorem readGraph_stopsAt (codecs : Codecs V E A) (factories : Factories V E)
    (namespace? : Option Bytes) (isEmpty : Bool) (content : Trace Resolved) (before : G) :
    ∃ count filling, StopsAt codecs factories namespace?
        (if isEmpty then [] else childElements content) ⟨before, []⟩
        (readGraph codecs factories namespace? isEmpty before content).1 count filling ∧
      (IsSteady G →
        (readGraph codecs factories namespace? isEmpty before content).2 = filling.graph) := by
  cases isEmpty with
  | true => exact ⟨0, ⟨before, []⟩, .nil fun _ => isOfMarkup_of_drain, fun _ => rfl⟩
  | false =>
    obtain ⟨count, filling, stops, graph⟩ :=
      readChildren_stopsAt codecs factories namespace? ⟨before, []⟩ content
    refine ⟨count, filling, ?_⟩
    rw [readGraph, if_neg Bool.false_ne_true, if_neg Bool.false_ne_true]
    rcases children : readChildren codecs factories namespace? ⟨before, []⟩ content with
      ⟨result, filled⟩
    rw [children] at stops graph
    cases result with
    | error error =>
      refine ⟨⟨stops.le_length, stops.effects, fun element same => ?_, ?_⟩, graph⟩
      · obtain ⟨_, fails, reported⟩ := stops.error element same
        cases reported
        exact ⟨error, fails, rfl⟩
      · rintro none _ ⟨⟩
        exact stops.markup none error rfl
    | ok rest =>
      refine ⟨⟨stops.le_length, stops.effects, fun element same => ?_, ?_⟩, graph⟩
      · obtain ⟨error, -, reported⟩ := stops.error element same
        cases reported
      · exact fun _ _ => isOfMarkup_of_drain

/-! ## The outcome of reading -/

/-- A document with a graph element has the effects of the defaults and of some first children. -/
theorem readTrace_stopsAt (codecs : Codecs V E A) (factories : Factories V E)
    {trace : Trace Resolved} (found : graphElement? trace = some (namespace?, elements))
    (before : G) :
    ∃ count filling, StopsAt codecs factories namespace? elements
        ⟨applyGraphDefaults codecs.graph before, []⟩ (readTrace codecs factories trace before).1
        count filling ∧
      (IsSteady G → (readTrace codecs factories trace before).2 = filling.graph) := by
  obtain ⟨behind, isEmpty, content, root, search, rfl⟩ := exists_of_graphElement? found
  rw [readTrace_eq_readGraph root search]
  exact readGraph_stopsAt codecs factories namespace? isEmpty content _

/-- The search for the graph element of a document ends with an error. -/
def MissesGraph (trace : Trace Resolved) (error : Error) : Prop :=
  findRoot trace = .error error ∨ ∃ namespace? behind, findRoot trace = .ok (namespace?, behind) ∧
    findGraph namespace? behind = .error error

/-- A document without a graph element changes nothing, and the search for one gives the error. -/
theorem readTrace_of_graphElement?_eq_none (codecs : Codecs V E A) (factories : Factories V E)
    {trace : Trace Resolved} (absent : graphElement? trace = none) (before : G) :
    ∃ error, MissesGraph trace error ∧
      readTrace codecs factories trace before = (.error error, before) := by
  rw [graphElement?] at absent
  rw [readTrace]
  cases root : findRoot trace with
  | error error => exact ⟨error, .inl root, rfl⟩
  | ok found =>
    rw [root] at absent
    dsimp only at absent ⊢
    cases search : findGraph found.1 found.2 with
    | error error => exact ⟨error, .inr ⟨found.1, found.2, root, search⟩, rfl⟩
    | ok content =>
      rw [search] at absent
      cases absent

/-- What a trace makes of a graph: an error and the graph as it was, if the trace has no graph
element; otherwise the effects of the defaults and of the graph element's children. -/
def IsPartialReading (codecs : Codecs V E A) (factories : Factories V E) (trace : Trace Resolved)
    (before : G) (outcome : Except Error Unit × G) : Prop :=
  match graphElement? trace with
  | none => (∃ error, outcome.1 = .error error) ∧ outcome.2 = before
  | some (namespace?, elements) =>
      ∃ count filling, StopsAt codecs factories namespace? elements
          ⟨applyGraphDefaults codecs.graph before, []⟩ outcome.1 count filling ∧
        outcome.2 = filling.graph

theorem readTrace_isPartialReading (steady : IsSteady G) (codecs : Codecs V E A)
    (factories : Factories V E) (trace : Trace Resolved) (before : G) :
    IsPartialReading codecs factories trace before (readTrace codecs factories trace before) := by
  rw [IsPartialReading]
  cases found : graphElement? trace with
  | none =>
    obtain ⟨error, -, outcome⟩ := readTrace_of_graphElement?_eq_none codecs factories found before
    rw [outcome]
    exact ⟨⟨error, rfl⟩, rfl⟩
  | some element =>
    obtain ⟨count, filling, stops, graph⟩ := readTrace_stopsAt codecs factories found before
    exact ⟨count, filling, stops, graph steady⟩

end

/-! ## Vertices and edges stay -/

section

variable {V E A : Type} [BEq V] [Hashable V] {first second third : AdjacencyGraph V E A}

/-- The vertices and edges of a graph are the first ones of another graph. -/
structure Extends (before after : AdjacencyGraph V E A) : Prop where
  vertices : before.vertices.toList <+: after.vertices.toList
  edges : before.edges.toList <+: after.edges.toList

namespace Extends

theorem refl (graph : AdjacencyGraph V E A) : Extends graph graph :=
  ⟨List.prefix_refl _, List.prefix_refl _⟩

theorem trans (left : Extends first second) (right : Extends second third) :
    Extends first third :=
  ⟨left.vertices.trans right.vertices, left.edges.trans right.edges⟩

theorem addVertex (vertex : V) (graph : AdjacencyGraph V E A) :
    Extends graph (graph.addVertex vertex).2 := by
  rw [AdjacencyGraph.addVertex, AdjacencyGraph.insertVertex]
  cases graph.index[vertex]? with
  | some id => exact refl graph
  | none =>
    refine ⟨?_, List.prefix_refl _⟩
    rw [Array.toList_push]
    exact List.prefix_append _ _

end Extends

end

section

variable {V E A : Type} [BEq V] [Hashable V] [Endpoints E V] {codecs : Codecs V E A}
  {factories : Factories V E} {namespace? : Option Bytes} {elements : List ChildElement}
  {element : ChildElement} {before filling : Filling (AdjacencyGraph V E A) V}

theorem isSteady_adjacencyGraph : IsSteady (AdjacencyGraph V E A) := by
  intro edge graph error
  simp only [Target.addEdge, AdjacencyGraph.addEdge]
  split
  · rintro ⟨⟩
  · exact fun _ => rfl

namespace Extends

theorem addEdge (edge : E) (graph : AdjacencyGraph V E A) :
    Extends graph (graph.addEdge edge).2 := by
  rw [AdjacencyGraph.addEdge]
  split
  · dsimp only
    rw [AdjacencyGraph.pushEdge]
    split
    · exact refl graph
    · refine ⟨List.prefix_refl _, ?_⟩
      dsimp only
      rw [Array.toList_push]
      exact List.prefix_append _ _
  · exact refl graph

/-- A child is added behind what is in the graph. -/
theorem addChild (child : Child V E) (filling : Filling (AdjacencyGraph V E A) V) :
    Extends filling.graph (addChild codecs child filling).2.graph := by
  cases child with
  | node id vertex => exact addVertex vertex filling.graph
  | edge edge => exact addEdge edge filling.graph
  | data key text =>
    rw [Document.addChild]
    split
    · exact ⟨List.prefix_refl _, List.prefix_refl _⟩
    · exact refl filling.graph

theorem childEffect
    (taken : childEffect codecs factories namespace? before element = .ok filling) :
    Extends before.graph filling.graph := by
  rw [Document.childEffect] at taken
  split at taken
  · simp only [bind_eq_ok_iff, pure_eq_ok_iff] at taken
    obtain ⟨⟨child, rest⟩, -, -, -, rfl⟩ := taken
    exact addChild child before
  · simp only [bind_eq_ok_iff, pure_eq_ok_iff] at taken
    obtain ⟨-, -, rfl⟩ := taken
    exact refl _

/-- So are children taken in order. -/
theorem effects (taken : elements.foldlM (Document.childEffect codecs factories namespace?) before =
    .ok filling) : Extends before.graph filling.graph := by
  induction elements generalizing before with
  | nil =>
    cases taken
    exact refl _
  | cons element elements ih =>
    rw [List.foldlM_cons, bind_eq_ok_iff] at taken
    obtain ⟨next, first, others⟩ := taken
    exact (childEffect first).trans (ih others)

end Extends

/-- Whatever the outcome, the graph has the vertices and edges that it had. -/
theorem IsPartialReading.graph_extends {trace : Trace Resolved} {before : AdjacencyGraph V E A}
    {outcome : Except Error Unit × AdjacencyGraph V E A}
    (reading : IsPartialReading codecs factories trace before outcome) :
    Extends before outcome.2 := by
  rw [IsPartialReading] at reading
  split at reading
  · rw [reading.2]
    exact .refl before
  · obtain ⟨count, filling, stops, graph⟩ := reading
    have kept := Extends.effects stops.effects
    rw [graph]
    exact ⟨kept.vertices, kept.edges⟩

/-- If the graph element of a document is not reached, reading fails and leaves the graph as it was.
Otherwise the graph has its defaults and some first children of the graph element have had their
whole effects: all of them, or those in front of the one whose error is reported. In each case the
vertices and edges that were in the graph are its first ones. -/
theorem read_isPartialReading (type : GraphType V E A) (factories : Factories V E)
    (document : Bytes) (before : AdjacencyGraph V E A) :
    Extends before (read type factories document before).2 ∧
      match type.compile with
      | .error cause =>
          read type factories document before = (.error (.configuration cause), before)
      | .ok codecs =>
          IsPartialReading codecs factories (Markup.read document) before
            (read type factories document before) := by
  rw [read]
  cases type.compile with
  | error cause => exact ⟨.refl before, rfl⟩
  | ok codecs =>
    have reading := readTrace_isPartialReading isSteady_adjacencyGraph codecs factories
      (Markup.read document) before
    exact ⟨reading.graph_extends, reading⟩

end

section

open GraphMarkup.Sample

/-- The label in front of a revision that cannot be read is set, and that behind it is not. -/
example :
    let document := ["<graphml>", "<graph>", "<data key='Label'>", "first", "</data>",
      "<data key='Revision'>", "new", "</data>", "<data key='Label'>", "second", "</data>",
      "</graph>", "</graphml>"].flatMap bytesOf
    let outcome := read roadGraphType roadFactories document noTowns
    outcome.1 ≠ .ok () ∧ outcome.2.attributes = ⟨"first", 1⟩ := by
  decide +kernel

end

end GraphMarkup.Document
