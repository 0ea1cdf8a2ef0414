import GraphMarkup.Proofs.Graph.Adjacency

/-!
# Runs of operations

A sequence of operations gives the same answers on an adjacency graph as on plain lists
of vertices and edges, and afterwards every question about the graph has the answer that
a scan of these lists gives. The graphs that sequences of operations build are consistent.
-/

namespace GraphMarkup.Graph

/-! ## Operations -/

/-- What can be done to a graph. -/
inductive Operation (V E A : Type) where
  | insertVertex (vertex : V)
  | addVertex (vertex : V)
  | addEdge (edge : E)
  | addVerticesAndEdge (edge : E)
  | setAttributes (attributes : A)
deriving DecidableEq, Repr

/-- What an operation tells. -/
inductive Answer where
  | position (id : VertexId)
  | isNew (new : Bool)
  | taken (result : Except EdgeError Bool)
  | edgePosition (id? : Option EdgeId)
  | nothing
deriving DecidableEq

/-- Perform operations one after the other; what comes back are their answers and the last
state. -/
def runOperations {S Op : Type} (perform : S → Op → Answer × S) (state : S) :
    List Op → List Answer × S
  | [] => ([], state)
  | operation :: operations =>
      let first := perform state operation
      let others := runOperations perform first.2 operations
      (first.1 :: others.1, others.2)

/-- Perform an operation on a plain graph, which has no attributes. -/
def PlainGraph.perform {V E A : Type} [BEq V] [Endpoints E V] (graph : PlainGraph V E) :
    Operation V E A → Answer × PlainGraph V E
  | .insertVertex vertex => (graph.insertVertex vertex).map .position id
  | .addVertex vertex => (graph.addVertex vertex).map .isNew id
  | .addEdge edge => (graph.addEdge edge).map .taken id
  | .addVerticesAndEdge edge => (graph.addVerticesAndEdge edge).map .edgePosition id
  | .setAttributes _ => (.nothing, graph)

namespace AdjacencyGraph

section

variable {V E A : Type} [BEq V] [Hashable V] [Endpoints E V]

/-- Perform an operation. -/
def perform (graph : AdjacencyGraph V E A) : Operation V E A → Answer × AdjacencyGraph V E A
  | .insertVertex vertex => (graph.insertVertex vertex).map .position id
  | .addVertex vertex => (graph.addVertex vertex).map .isNew id
  | .addEdge edge => (graph.addEdge edge).map .taken id
  | .addVerticesAndEdge edge => (graph.addVerticesAndEdge edge).map .edgePosition id
  | .setAttributes attributes => (.nothing, { graph with attributes := attributes })

/-- The graphs that some sequence of operations builds. -/
def Reachable (graph : AdjacencyGraph V E A) : Prop :=
  ∃ directed allowsParallelEdges attributes operations,
    graph = (runOperations perform (empty directed allowsParallelEdges attributes) operations).2

/-- Every question about a graph has the answer that a scan of two lists gives, and no lookup
of a position fails. -/
structure ObservedAs (graph : AdjacencyGraph V E A) (plain : PlainGraph V E) : Prop where
  /-- No two of the vertices are equal. -/
  distinct : plain.vertices.Pairwise fun a b => (a == b) = false
  vertices : graph.listing.vertices = plain.vertices
  edges : graph.listing.edges = plain.edges
  vertexCount : graph.listing.vertexCount = plain.vertices.length
  edgeCount : graph.listing.edgeCount = plain.edges.length
  directed : graph.listing.directed = plain.directed
  allowsParallelEdges : graph.allowsParallelEdges = plain.allowsParallelEdges
  isEmpty : graph.isEmpty = plain.vertices.isEmpty
  containsVertex : ∀ vertex, graph.containsVertex vertex = plain.vertices.any (· == vertex)
  vertexId? : ∀ vertex, graph.vertexId? vertex = plain.vertexId? vertex
  vertex? : ∀ id, graph.vertex? id = plain.vertices[id.index]?
  /-- Positions and vertices determine each other. -/
  inverse : ∀ vertex id, graph.vertexId? vertex = some id ↔
    ∃ found, graph.vertex? id = some found ∧ found == vertex
  edge? : ∀ id, graph.edge? id = plain.edges[id.index]?
  containsEdge : ∀ source target,
    graph.containsEdge source target = plain.containsEdge source target
  outEdgesOf : ∀ vertex, graph.outEdgesOf vertex = plain.outEdgesOf vertex
  outDegree : ∀ vertex, graph.outDegree vertex = (plain.outEdgesOf vertex).length
  /-- The position of a vertex has a list of edges, each of which is there, with both its ends
  in the index. -/
  present : ∀ vertex id, graph.vertexId? vertex = some id →
    id.index < graph.outEdges.size ∧
      ∀ edgeId ∈ graph.outEdgeIds id, ∃ edge source target,
        graph.edge? edgeId = some edge ∧
          graph.vertexId? (Endpoints.source edge) = some source ∧
            graph.vertexId? (Endpoints.target edge) = some target

end

section

variable {V E A : Type} [BEq V] [Hashable V] [Endpoints E V] {graph : AdjacencyGraph V E A}

theorem Consistent.empty [EquivBEq V] [LawfulHashable V] (directed allowsParallelEdges : Bool)
    (attributes : A) :
    (AdjacencyGraph.empty directed allowsParallelEdges attributes :
      AdjacencyGraph V E A).Consistent where
  sound := .empty directed allowsParallelEdges
  indexed _ := Std.HashMap.getElem?_empty
  sized := rfl
  listed _ _ found := by cases Array.getElem?_empty.symm.trans found

theorem Follows.map {α : Type} {result : α × AdjacencyGraph V E A}
    {expected : α × PlainGraph V E} (follows : Follows result expected) (answer : α → Answer) :
    Follows (result.map answer id) (expected.map answer id) :=
  ⟨congrArg answer follows.value, follows.plain, follows.consistent⟩

variable [EquivBEq V]

/-! ## Observations -/

/-- Some edge of a consistent graph joins two vertices if one among its edges does. -/
theorem Consistent.containsEdge_eq (consistent : graph.Consistent) (source target : V) :
    graph.containsEdge source target = graph.plain.containsEdge source target := by
  rw [AdjacencyGraph.containsEdge]
  cases foundSource : graph.vertexId? source with
  | none =>
    rw [consistent.indexed] at foundSource
    exact (consistent.sound.containsEdge_of_none (Or.inl foundSource)).symm
  | some sourceId =>
    cases foundTarget : graph.vertexId? target with
    | none =>
      rw [consistent.indexed] at foundTarget
      exact (consistent.sound.containsEdge_of_none (Or.inr foundTarget)).symm
    | some targetId => exact consistent.connects_eq foundSource foundTarget

/-- The edges listed at a vertex are those among its edges that leave it. -/
theorem Consistent.outEdgesOf_eq (consistent : graph.Consistent) (vertex : V) :
    graph.outEdgesOf vertex = graph.plain.outEdgesOf vertex := by
  rw [AdjacencyGraph.outEdgesOf, ← PlainGraph.filterMap_outEdgeIds]
  cases found : graph.vertexId? vertex with
  | none =>
    rw [consistent.indexed] at found
    rw [consistent.sound.outEdgeIds_of_none found]
    rfl
  | some id =>
    dsimp only
    rw [consistent.toList_outEdgeIds found]
    congr 1
    funext edgeId
    exact edge?_eq graph edgeId

theorem Consistent.outDegree_eq (consistent : graph.Consistent) (vertex : V) :
    graph.outDegree vertex = (graph.plain.outEdgesOf vertex).length := by
  rw [outDegree, ← PlainGraph.length_outEdgeIds]
  cases found : graph.vertexId? vertex with
  | none =>
    rw [consistent.indexed] at found
    rw [consistent.sound.outEdgeIds_of_none found]
    rfl
  | some id =>
    dsimp only
    rw [← Array.length_toList, consistent.toList_outEdgeIds found]

variable [LawfulHashable V]

/-- Every question about a consistent graph has the answer that its lists give. -/
theorem Consistent.observedAs (consistent : graph.Consistent) : graph.ObservedAs graph.plain where
  distinct := consistent.sound.distinct
  vertices := rfl
  edges := rfl
  vertexCount := rfl
  edgeCount := rfl
  directed := rfl
  allowsParallelEdges := rfl
  isEmpty := Array.isEmpty_toList.symm
  containsVertex vertex := by
    rw [containsVertex, Std.HashMap.contains_eq_isSome_getElem?, ← PlainGraph.isSome_vertexId?,
      ← consistent.indexed]
    rfl
  vertexId? := consistent.indexed
  vertex? := vertex?_eq graph
  inverse vertex id := by
    constructor
    · exact consistent.exists_vertex
    · rintro ⟨found, inside, equal⟩
      rw [vertex?_eq] at inside
      rw [consistent.indexed, ← PlainGraph.vertexId?_congr equal]
      exact consistent.sound.vertexId?_of_getElem? inside
  edge? := edge?_eq graph
  containsEdge := consistent.containsEdge_eq
  outEdgesOf := consistent.outEdgesOf_eq
  outDegree := consistent.outDegree_eq
  present vertex id found := by
    refine ⟨consistent.lt_size found, ?_⟩
    intro edgeId member
    rw [← Array.mem_toList_iff, consistent.toList_outEdgeIds found] at member
    obtain ⟨edge, inside, atId⟩ := PlainGraph.exists_edge_of_mem_outEdgeIds member
    obtain ⟨source, target, foundSource, foundTarget⟩ := consistent.ended inside
    exact ⟨edge, source, target, (edge?_eq graph edgeId).trans atId, foundSource, foundTarget⟩

/-! ## Runs -/

/-- One operation on a consistent graph is that operation on its lists. -/
theorem Consistent.perform (consistent : graph.Consistent) (operation : Operation V E A) :
    Follows (graph.perform operation) (graph.plain.perform operation) := by
  cases operation with
  | insertVertex vertex => exact (consistent.insertVertex vertex).map .position
  | addVertex vertex => exact (consistent.addVertex vertex).map .isNew
  | addEdge edge => exact (consistent.addEdge edge).map .taken
  | addVerticesAndEdge edge => exact (consistent.addVerticesAndEdge edge).map .edgePosition
  | setAttributes attributes =>
    exact ⟨rfl, rfl, consistent.sound, consistent.indexed, consistent.sized, consistent.listed⟩

/-- A run of operations on a consistent graph is that run on its lists. -/
theorem Consistent.runOperations (consistent : graph.Consistent)
    (operations : List (Operation V E A)) :
    (runOperations AdjacencyGraph.perform graph operations).1 =
        (runOperations PlainGraph.perform graph.plain operations).1 ∧
      (runOperations AdjacencyGraph.perform graph operations).2.plain =
        (runOperations PlainGraph.perform graph.plain operations).2 ∧
      (runOperations AdjacencyGraph.perform graph operations).2.Consistent := by
  induction operations generalizing graph with
  | nil => exact ⟨rfl, rfl, consistent⟩
  | cons operation operations ih =>
    have first := consistent.perform operation
    obtain ⟨answers, plain, last⟩ := ih first.consistent
    rw [first.plain] at answers plain
    refine ⟨?_, plain, last⟩
    exact congrArg₂ List.cons first.value answers

/-- All graphs that operations build are consistent. -/
theorem Reachable.consistent (reachable : graph.Reachable) : graph.Consistent := by
  obtain ⟨directed, allowsParallelEdges, attributes, operations, rfl⟩ := reachable
  exact ((Consistent.empty directed allowsParallelEdges attributes).runOperations operations).2.2

/-- Any sequence of operations on a new graph gives the answers that it gives on two lists, and
leads to a graph about which every question has the answer that these lists give. -/
theorem runOperations_empty (directed allowsParallelEdges : Bool) (attributes : A)
    (operations : List (Operation V E A)) :
    (runOperations perform (empty directed allowsParallelEdges attributes)
        operations).1 =
      (runOperations PlainGraph.perform ⟨directed, allowsParallelEdges, [], []⟩
        operations).1 ∧
    (runOperations perform (empty directed allowsParallelEdges attributes)
        operations).2.ObservedAs
      (runOperations PlainGraph.perform ⟨directed, allowsParallelEdges, [], []⟩
        operations).2 := by
  obtain ⟨answers, plain, consistent⟩ :=
    (Consistent.empty directed allowsParallelEdges attributes).runOperations operations
  refine ⟨answers, ?_⟩
  have observed := consistent.observedAs
  rw [plain] at observed
  exact observed

end

/-- The run of an undirected graph without parallel edges: an edge and its reverse, a loop, and an
edge that ends nowhere. -/
theorem observedAs_edgeAndLoop :
    let operations : List (Operation Nat (Edge Nat) Unit) :=
      [.addVerticesAndEdge ⟨0, 1⟩, .addVerticesAndEdge ⟨1, 0⟩, .insertVertex 2, .addEdge ⟨2, 2⟩,
        .addEdge ⟨2, 3⟩]
    let run := runOperations perform (AdjacencyGraph.empty false false ()) operations
    run.1 = [.edgePosition (some ⟨0⟩), .edgePosition none, .position ⟨2⟩, .taken (.ok true),
        .taken (.error .absentEndpoint)] ∧
      run.2.ObservedAs ⟨false, false, [0, 1, 2], [⟨0, 1⟩, ⟨2, 2⟩]⟩ := by
  intro operations run
  have observed := runOperations_empty false false () operations
  have plain : runOperations PlainGraph.perform ⟨false, false, [], []⟩ operations =
      ([.edgePosition (some ⟨0⟩), .edgePosition none, .position ⟨2⟩, .taken (.ok true),
        .taken (.error .absentEndpoint)], ⟨false, false, [0, 1, 2], [⟨0, 1⟩, ⟨2, 2⟩]⟩) := by
    decide
  rw [plain] at observed
  exact observed

end AdjacencyGraph

end GraphMarkup.Graph
