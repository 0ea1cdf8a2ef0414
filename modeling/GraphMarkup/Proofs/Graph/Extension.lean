import GraphMarkup.Proofs.Graph.Refinement

/-!
# Adding vertices and edges in a row

Vertices that are added one after the other stand behind each other, but for those that are
equal to an earlier one. Edges between vertices are all taken if none of them is parallel to
an earlier one where that is not allowed.
-/

namespace GraphMarkup.Graph

/-! ## Plain graphs -/

namespace PlainGraph

section

variable {V E : Type} [BEq V]

/-- The graph after adding vertices, one after the other. -/
def addVertices (graph : PlainGraph V E) (vertices : List V) : PlainGraph V E :=
  vertices.foldl (fun extended vertex => (extended.addVertex vertex).2) graph

theorem addVertices_nil (graph : PlainGraph V E) : graph.addVertices [] = graph :=
  rfl

theorem addVertices_cons (graph : PlainGraph V E) (vertex : V) (vertices : List V) :
    graph.addVertices (vertex :: vertices) = (graph.addVertex vertex).2.addVertices vertices :=
  rfl

/-- Vertices that are added stand in their order, but for some that are left out. -/
theorem sublist_addVertices (graph : PlainGraph V E) (vertices : List V) :
    (graph.addVertices vertices).vertices.Sublist (graph.vertices ++ vertices) := by
  induction vertices generalizing graph with
  | nil => rw [addVertices_nil, List.append_nil]
  | cons vertex vertices ih =>
    rw [addVertices_cons]
    apply (ih _).trans
    rw [List.append_cons]
    apply List.Sublist.append_right
    rw [addVertex]
    split
    · exact List.sublist_append_left _ _
    · exact List.Sublist.refl _

/-- All vertices are taken if no two are equal. -/
theorem addVertices_of_distinct {graph : PlainGraph V E} {vertices : List V}
    (distinct : (graph.vertices ++ vertices).Pairwise fun a b => (a == b) = false) :
    graph.addVertices vertices = graph.withVertices vertices := by
  induction vertices generalizing graph with
  | nil => exact (withVertices_nil graph).symm
  | cons vertex vertices ih =>
    have missing : graph.vertexId? vertex = none := by
      apply vertexId?_eq_none_iff.mpr
      intro found inside
      exact (List.pairwise_append.mp distinct).2.2 found inside vertex List.mem_cons_self
    rw [addVertices_cons, withVertices_cons, addVertex_eq, insertVertex_of_none missing]
    apply ih
    rw [withVertex, ← List.append_cons]
    exact distinct

variable [Endpoints E V]

/-- The graph after adding edges, one after the other. -/
def addEdges (graph : PlainGraph V E) (edges : List E) : PlainGraph V E :=
  edges.foldl (fun extended edge => (extended.addEdge edge).2) graph

theorem addEdges_cons (graph : PlainGraph V E) (edge : E) (edges : List E) :
    graph.addEdges (edge :: edges) = (graph.addEdge edge).2.addEdges edges :=
  rfl

/-- Edges change nothing about the vertices. -/
theorem vertices_addEdges (graph : PlainGraph V E) (edges : List E) :
    (graph.addEdges edges).vertices = graph.vertices := by
  induction edges generalizing graph with
  | nil => rfl
  | cons edge edges ih =>
    rw [addEdges_cons, ih, addEdge, pushEdge]
    split
    · split
      · rfl
      · rfl
    · rfl

/-- All edges between vertices are taken if none is refused. -/
theorem addEdges_of_accepted {graph : PlainGraph V E} {edges : List E}
    (ended : ∀ edge ∈ edges, (graph.vertexId? (Endpoints.source edge)).isSome ∧
      (graph.vertexId? (Endpoints.target edge)).isSome)
    (simple : graph.allowsParallelEdges = false →
      (graph.edges ++ edges).Pairwise fun earlier later =>
        graph.joins (Endpoints.source later) (Endpoints.target later) earlier = false) :
    graph.addEdges edges = graph.withEdges edges := by
  induction edges generalizing graph with
  | nil => exact (withEdges_nil graph).symm
  | cons edge edges ih =>
    obtain ⟨sources, targets⟩ := ended edge List.mem_cons_self
    have accepted : graph.allowsParallelEdges = false →
        graph.containsEdge (Endpoints.source edge) (Endpoints.target edge) = false := by
      intro single
      apply List.any_eq_false.mpr
      intro earlier inside
      have none := (List.pairwise_append.mp (simple single)).2.2 earlier inside edge
        List.mem_cons_self
      rw [none]
      exact Bool.false_ne_true
    rw [addEdges_cons, withEdges_cons, addEdge_of_accepted sources targets accepted]
    apply ih
    · exact fun other member => ended other (List.mem_cons_of_mem _ member)
    · intro single
      rw [withEdge, ← List.append_cons]
      exact simple single

end

end PlainGraph

/-! ## Adjacency graphs -/

namespace AdjacencyGraph

section

variable {V E A : Type} [BEq V] [Hashable V] [Endpoints E V]

/-- The graph after adding vertices, one after the other. -/
def addVertices (graph : AdjacencyGraph V E A) (vertices : List V) : AdjacencyGraph V E A :=
  vertices.foldl (fun extended vertex => (extended.addVertex vertex).2) graph

/-- The graph after adding edges, one after the other. -/
def addEdges (graph : AdjacencyGraph V E A) (edges : List E) : AdjacencyGraph V E A :=
  edges.foldl (fun extended edge => (extended.addEdge edge).2) graph

/-- A graph that is consistent and has the given vertices, edges and attributes. -/
structure Holds (graph : AdjacencyGraph V E A) (plain : PlainGraph V E) (attributes : A) :
    Prop where
  consistent : graph.Consistent
  plain_eq : graph.plain = plain
  attributes_eq : graph.attributes = attributes

variable [EquivBEq V] {graph : AdjacencyGraph V E A} {plain : PlainGraph V E} {attributes : A}

/-- Adding edges is adding them to the lists of vertices and edges. -/
theorem Holds.addEdges (holds : graph.Holds plain attributes) (edges : List E) :
    (graph.addEdges edges).Holds (plain.addEdges edges) attributes := by
  induction edges generalizing graph plain with
  | nil => exact holds
  | cons edge edges ih =>
    have added := holds.consistent.addEdge edge
    rw [holds.plain_eq] at added
    exact ih ⟨added.consistent, added.plain,
      (attributes_addEdge graph edge).trans holds.attributes_eq⟩

variable [LawfulHashable V]

theorem Holds.empty (directed allowsParallelEdges : Bool) (attributes : A) :
    (AdjacencyGraph.empty directed allowsParallelEdges attributes : AdjacencyGraph V E A).Holds
      ⟨directed, allowsParallelEdges, [], []⟩ attributes :=
  ⟨.empty directed allowsParallelEdges attributes, rfl, rfl⟩

/-- Adding vertices is adding them to the lists of vertices and edges. -/
theorem Holds.addVertices (holds : graph.Holds plain attributes) (vertices : List V) :
    (graph.addVertices vertices).Holds (plain.addVertices vertices) attributes := by
  induction vertices generalizing graph plain with
  | nil => exact holds
  | cons vertex vertices ih =>
    have added := holds.consistent.addVertex vertex
    rw [holds.plain_eq] at added
    exact ih ⟨added.consistent, added.plain,
      (attributes_addVertex graph vertex).trans holds.attributes_eq⟩

omit [Endpoints E V] in
/-- The vertices that are added belong to the graph from then on, as all others do that did. -/
theorem containsVertex_addVertices (graph : AdjacencyGraph V E A) (vertices : List V)
    (other : V) :
    (graph.addVertices vertices).containsVertex other =
      (vertices.any (· == other) || graph.containsVertex other) := by
  induction vertices generalizing graph with
  | nil => rfl
  | cons vertex vertices ih =>
    have first := ih (graph.addVertex vertex).2
    rw [containsVertex_addVertex] at first
    rw [List.any_cons, Bool.or_assoc, Bool.or_left_comm]
    exact first

end

end AdjacencyGraph

end GraphMarkup.Graph
