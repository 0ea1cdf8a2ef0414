import GraphMarkup.Graph.Adjacency
import Mathlib.Data.List.Basic

/-!
# Plain graphs

A plain graph is a list of vertices and a list of edges, both in the order in which
they were added. Whatever is asked of it is answered by going through these lists
from the front. No operation makes two vertices equal, lets an edge end outside the
graph or, where parallel edges are not allowed, adds an edge to one that is parallel.
-/

namespace GraphMarkup.Graph

/-- A graph without an index. -/
structure PlainGraph (V E : Type) where
  directed : Bool
  allowsParallelEdges : Bool
  vertices : List V := []
  edges : List E := []
deriving DecidableEq, Repr

namespace PlainGraph

section

variable {V E : Type} [BEq V]

/-- The position of a vertex: that of the first one equal to it. -/
def vertexId? (graph : PlainGraph V E) (vertex : V) : Option VertexId :=
  (graph.vertices.findIdx? (· == vertex)).map VertexId.mk

/-- The graph with a vertex behind the others. -/
def withVertex (graph : PlainGraph V E) (vertex : V) : PlainGraph V E :=
  { graph with vertices := graph.vertices ++ [vertex] }

/-- The graph with an edge behind the others. -/
def withEdge (graph : PlainGraph V E) (edge : E) : PlainGraph V E :=
  { graph with edges := graph.edges ++ [edge] }

/-- The graph with more vertices behind the others. -/
def withVertices (graph : PlainGraph V E) (vertices : List V) : PlainGraph V E :=
  { graph with vertices := graph.vertices ++ vertices }

/-- The graph with more edges behind the others. -/
def withEdges (graph : PlainGraph V E) (edges : List E) : PlainGraph V E :=
  { graph with edges := graph.edges ++ edges }

/-- Find a vertex, or add it behind the others. -/
def insertVertex (graph : PlainGraph V E) (vertex : V) : VertexId × PlainGraph V E :=
  match graph.vertexId? vertex with
  | some id => (id, graph)
  | none => (⟨graph.vertices.length⟩, graph.withVertex vertex)

/-- Add a vertex unless there is an equal one, and tell whether it is new. -/
def addVertex (graph : PlainGraph V E) (vertex : V) : Bool × PlainGraph V E :=
  if graph.vertices.any (· == vertex) then (false, graph) else (true, graph.withVertex vertex)

variable [Endpoints E V]

/-- Whether an edge goes from one vertex to another, in an undirected graph in either
direction. -/
def joins (graph : PlainGraph V E) (source target : V) (edge : E) : Bool :=
  (Endpoints.source edge == source && Endpoints.target edge == target) ||
    (!graph.directed && Endpoints.source edge == target && Endpoints.target edge == source)

/-- Whether some edge joins two vertices. -/
def containsEdge (graph : PlainGraph V E) (source target : V) : Bool :=
  graph.edges.any (graph.joins source target)

/-- Whether an edge begins at a vertex or, in an undirected graph, ends there. -/
def leaves (graph : PlainGraph V E) (vertex : V) (edge : E) : Bool :=
  Endpoints.source edge == vertex || (!graph.directed && Endpoints.target edge == vertex)

/-- The edges that leave a vertex. -/
def outEdgesOf (graph : PlainGraph V E) (vertex : V) : List E :=
  graph.edges.filter (graph.leaves vertex)

/-- The positions of the edges that leave a vertex. -/
def outEdgeIds (graph : PlainGraph V E) (vertex : V) : List EdgeId :=
  (graph.edges.zipIdx.filter fun entry => graph.leaves vertex entry.1).map fun entry => ⟨entry.2⟩

/-- Add an edge, unless it is parallel to another one and the graph does not allow that. -/
def pushEdge (graph : PlainGraph V E) (edge : E) : Option EdgeId × PlainGraph V E :=
  if !graph.allowsParallelEdges &&
      graph.containsEdge (Endpoints.source edge) (Endpoints.target edge) then (none, graph)
  else (some ⟨graph.edges.length⟩, graph.withEdge edge)

/-- Add an edge and those of its ends that are not in the graph yet. -/
def addVerticesAndEdge (graph : PlainGraph V E) (edge : E) : Option EdgeId × PlainGraph V E :=
  ((graph.insertVertex (Endpoints.source edge)).2.insertVertex (Endpoints.target edge)).2.pushEdge
    edge

/-- Add an edge between vertices of the graph and tell whether it was taken. -/
def addEdge (graph : PlainGraph V E) (edge : E) : Except EdgeError Bool × PlainGraph V E :=
  if graph.vertices.any (· == Endpoints.source edge) &&
      graph.vertices.any (· == Endpoints.target edge) then
    (.ok (graph.pushEdge edge).1.isSome, (graph.pushEdge edge).2)
  else (.error .absentEndpoint, graph)

/-- What all operations of a plain graph preserve. -/
structure Sound (graph : PlainGraph V E) : Prop where
  distinct : graph.vertices.Pairwise fun a b => (a == b) = false
  /-- The ends of edges are vertices. -/
  ended : ∀ edge ∈ graph.edges,
    (graph.vertexId? (Endpoints.source edge)).isSome ∧
      (graph.vertexId? (Endpoints.target edge)).isSome
  /-- No edge joins the ends of a later one unless parallel edges are allowed. -/
  simple : graph.allowsParallelEdges = false → graph.edges.Pairwise fun earlier later =>
    graph.joins (Endpoints.source later) (Endpoints.target later) earlier = false

end

/-! ## Positions -/

section

variable {V E : Type} [BEq V] {graph : PlainGraph V E}

omit [BEq V] in
theorem withVertices_nil (graph : PlainGraph V E) : graph.withVertices [] = graph := by
  rw [withVertices, List.append_nil]

omit [BEq V] in
theorem withVertices_cons (graph : PlainGraph V E) (vertex : V) (vertices : List V) :
    graph.withVertices (vertex :: vertices) = (graph.withVertex vertex).withVertices vertices := by
  rw [withVertices, withVertices, withVertex, List.append_cons]

omit [BEq V] in
theorem withEdges_nil (graph : PlainGraph V E) : graph.withEdges [] = graph := by
  rw [withEdges, List.append_nil]

omit [BEq V] in
theorem withEdges_cons (graph : PlainGraph V E) (edge : E) (edges : List E) :
    graph.withEdges (edge :: edges) = (graph.withEdge edge).withEdges edges := by
  rw [withEdges, withEdges, withEdge, List.append_cons]

theorem isSome_vertexId? (graph : PlainGraph V E) (vertex : V) :
    (graph.vertexId? vertex).isSome = graph.vertices.any (· == vertex) := by
  rw [vertexId?, Option.isSome_map, List.findIdx?_isSome]

theorem vertexId?_eq_none_iff {vertex : V} :
    graph.vertexId? vertex = none ↔ ∀ found ∈ graph.vertices, (found == vertex) = false := by
  rw [vertexId?, Option.map_eq_none_iff, List.findIdx?_eq_none_iff]

theorem insertVertex_of_some {vertex : V} {id : VertexId}
    (found : graph.vertexId? vertex = some id) : graph.insertVertex vertex = (id, graph) := by
  rw [insertVertex, found]

theorem insertVertex_of_none {vertex : V} (missing : graph.vertexId? vertex = none) :
    graph.insertVertex vertex = (⟨graph.vertices.length⟩, graph.withVertex vertex) := by
  rw [insertVertex, missing]

/-- Adding a vertex is inserting it; it is new if it was not found. -/
theorem addVertex_eq (graph : PlainGraph V E) (vertex : V) :
    graph.addVertex vertex =
      ((graph.vertexId? vertex).isNone, (graph.insertVertex vertex).2) := by
  rw [addVertex, ← isSome_vertexId?, insertVertex]
  cases graph.vertexId? vertex <;> rfl

/-- A vertex behind the others is found if it is none of them. -/
theorem vertexId?_withVertex (vertex other : V) :
    (graph.withVertex vertex).vertexId? other =
      (graph.vertexId? other).or
        (if vertex == other then some ⟨graph.vertices.length⟩ else none) := by
  rw [vertexId?, vertexId?, withVertex, List.findIdx?_append]
  cases graph.vertices.findIdx? (· == other) with
  | some position => rfl
  | none =>
    rw [List.findIdx?_singleton]
    split <;> simp

theorem vertexId?_withVertex_of_some {vertex other : V} {id : VertexId}
    (found : graph.vertexId? other = some id) :
    (graph.withVertex vertex).vertexId? other = some id := by
  rw [vertexId?_withVertex, found]
  rfl

/-- Inserting a vertex leaves the positions of the others alone. -/
theorem vertexId?_insertVertex_of_some {vertex other : V} {id : VertexId}
    (found : graph.vertexId? other = some id) :
    (graph.insertVertex vertex).2.vertexId? other = some id := by
  cases known : graph.vertexId? vertex with
  | some _ =>
    rw [insertVertex_of_some known]
    exact found
  | none =>
    rw [insertVertex_of_none known]
    exact vertexId?_withVertex_of_some found

/-- A vertex stands at its position. -/
theorem getElem?_of_vertexId?_eq {vertex : V} {id : VertexId}
    (found : graph.vertexId? vertex = some id) :
    ∃ other, graph.vertices[id.index]? = some other ∧ other == vertex := by
  obtain ⟨position, first, rfl⟩ := Option.map_eq_some_iff.mp found
  obtain ⟨inside, equal, -⟩ := List.findIdx?_eq_some_iff_getElem.mp first
  exact ⟨graph.vertices[position], List.getElem?_eq_getElem inside, equal⟩

variable [EquivBEq V]

/-- Equal vertices have one position. -/
theorem vertexId?_congr {a b : V} (equal : a == b) : graph.vertexId? a = graph.vertexId? b := by
  have same : (fun found : V => found == a) = (fun found => found == b) := by
    funext found
    exact Bool.eq_iff_iff.mpr ⟨fun first => BEq.trans first equal,
      fun second => BEq.trans second (BEq.symm equal)⟩
  rw [vertexId?, vertexId?, same]

/-- Vertices at one position are equal. -/
theorem beq_of_vertexId?_eq {a b : V} {id : VertexId} (first : graph.vertexId? a = some id)
    (second : graph.vertexId? b = some id) : a == b := by
  obtain ⟨other, atFirst, equalFirst⟩ := getElem?_of_vertexId?_eq first
  obtain ⟨same, atSecond, equalSecond⟩ := getElem?_of_vertexId?_eq second
  cases atFirst.symm.trans atSecond
  exact BEq.trans (BEq.symm equalFirst) equalSecond

/-- An inserted vertex is at the position that is given. -/
theorem vertexId?_insertVertex (graph : PlainGraph V E) (vertex : V) :
    (graph.insertVertex vertex).2.vertexId? vertex = some (graph.insertVertex vertex).1 := by
  cases known : graph.vertexId? vertex with
  | some id =>
    rw [insertVertex_of_some known]
    exact known
  | none =>
    rw [insertVertex_of_none known, vertexId?_withVertex, known, if_pos (BEq.refl vertex)]
    rfl

theorem vertexId?_eq_some_iff_beq {vertex : V} {id : VertexId}
    (found : graph.vertexId? vertex = some id) (other : V) :
    graph.vertexId? other = some id ↔ other == vertex :=
  ⟨fun same => beq_of_vertexId?_eq same found, fun equal => (vertexId?_congr equal).trans found⟩

/-- A vertex equals one of the graph if it has the same position. -/
theorem beq_eq_decide {vertex : V} (present : (graph.vertexId? vertex).isSome) (other : V) :
    (other == vertex) = decide (graph.vertexId? other = graph.vertexId? vertex) := by
  obtain ⟨id, found⟩ := Option.isSome_iff_exists.mp present
  rw [Bool.eq_iff_iff, decide_eq_true_iff, found]
  exact (vertexId?_eq_some_iff_beq found other).symm

end

/-! ## Sound graphs -/

section

variable {V E : Type} [BEq V] [Endpoints E V] {graph : PlainGraph V E}

theorem outEdgeIds_withVertex (vertex other : V) :
    (graph.withVertex vertex).outEdgeIds other = graph.outEdgeIds other :=
  rfl

/-- Which edges leave a vertex does not depend on which of equal vertices is given. -/
theorem outEdgeIds_congr [EquivBEq V] {a b : V} (equal : a == b) :
    graph.outEdgeIds a = graph.outEdgeIds b := by
  have leaves : graph.leaves a = graph.leaves b := by
    funext edge
    rw [PlainGraph.leaves, PlainGraph.leaves, BEq.congr_right equal, BEq.congr_right equal]
  rw [outEdgeIds, leaves, outEdgeIds]

/-- A new edge is listed behind the others where it leaves. -/
theorem outEdgeIds_withEdge (edge : E) (vertex : V) :
    (graph.withEdge edge).outEdgeIds vertex =
      graph.outEdgeIds vertex ++
        if graph.leaves vertex edge then [⟨graph.edges.length⟩] else [] := by
  have same : (graph.withEdge edge).leaves vertex = graph.leaves vertex := rfl
  rw [outEdgeIds, outEdgeIds, same, withEdge, List.zipIdx_append, List.filter_append,
    List.map_append, List.zipIdx_singleton]
  cases leaving : graph.leaves vertex edge <;> simp [leaving]

/-- The edges that leave a vertex, taken from the list of edges with their positions. -/
theorem outEdgesOf_eq_map (graph : PlainGraph V E) (vertex : V) :
    graph.outEdgesOf vertex =
      (graph.edges.zipIdx.filter fun entry => graph.leaves vertex entry.1).map Prod.fst := by
  have front : graph.edges = graph.edges.zipIdx.map Prod.fst := (List.zipIdx_map_fst 0 _).symm
  calc
    graph.outEdgesOf vertex = (graph.edges.zipIdx.map Prod.fst).filter (graph.leaves vertex) := by
      rw [← front, outEdgesOf]
    _ = _ := List.filter_map

theorem length_outEdgeIds (graph : PlainGraph V E) (vertex : V) :
    (graph.outEdgeIds vertex).length = (graph.outEdgesOf vertex).length := by
  rw [outEdgeIds, outEdgesOf_eq_map, List.length_map, List.length_map]

/-- The positions of the edges that leave a vertex are those of the edges. -/
theorem filterMap_outEdgeIds (graph : PlainGraph V E) (vertex : V) :
    (graph.outEdgeIds vertex).filterMap (fun id => graph.edges[id.index]?) =
      graph.outEdgesOf vertex := by
  have entries : ∀ entry ∈ graph.edges.zipIdx.filter fun entry => graph.leaves vertex entry.1,
      graph.edges[entry.2]? = some entry.1 := by
    rintro ⟨edge, position⟩ member
    exact List.mem_zipIdx_iff_getElem?.mp (List.mem_filter.mp member).1
  rw [outEdgeIds, List.filterMap_map, outEdgesOf_eq_map, ← List.filterMap_eq_map]
  exact List.filterMap_congr entries

/-- The position of an edge that leaves a vertex is that of an edge. -/
theorem exists_edge_of_mem_outEdgeIds {vertex : V} {id : EdgeId}
    (member : id ∈ graph.outEdgeIds vertex) :
    ∃ edge ∈ graph.edges, graph.edges[id.index]? = some edge := by
  obtain ⟨⟨edge, position⟩, inside, rfl⟩ := List.mem_map.mp member
  have found := List.mem_zipIdx_iff_getElem?.mp (List.mem_filter.mp inside).1
  exact ⟨edge, List.mem_of_getElem? found, found⟩

/-- An edge that joins two vertices leaves the first. -/
theorem leaves_of_joins {source target : V} {edge : E} (joined : graph.joins source target edge) :
    graph.leaves source edge := by
  simp only [joins, leaves, Bool.or_eq_true, Bool.and_eq_true] at joined ⊢
  rcases joined with ⟨atSource, -⟩ | ⟨⟨undirected, -⟩, atTarget⟩
  · exact Or.inl atSource
  · exact Or.inr ⟨undirected, atTarget⟩

/-- Only edges that leave the first of two vertices can join them. -/
theorem any_joins_outEdgesOf (graph : PlainGraph V E) (source target : V) :
    (graph.outEdgesOf source).any (graph.joins source target) =
      graph.containsEdge source target := by
  rw [outEdgesOf, List.any_filter, containsEdge]
  congr 1
  funext edge
  cases joined : graph.joins source target edge with
  | false => exact Bool.and_false _
  | true => rw [leaves_of_joins joined, Bool.and_true]

/-- An edge between vertices is added unless it is refused. -/
theorem addEdge_of_accepted {edge : E}
    (sources : (graph.vertexId? (Endpoints.source edge)).isSome)
    (targets : (graph.vertexId? (Endpoints.target edge)).isSome)
    (accepted : graph.allowsParallelEdges = false →
      graph.containsEdge (Endpoints.source edge) (Endpoints.target edge) = false) :
    graph.addEdge edge = (.ok true, graph.withEdge edge) := by
  have pushed : graph.pushEdge edge = (some ⟨graph.edges.length⟩, graph.withEdge edge) := by
    rw [pushEdge]
    cases allows : graph.allowsParallelEdges with
    | true => rfl
    | false => rw [accepted allows]; rfl
  rw [isSome_vertexId?] at sources targets
  rw [addEdge, sources, targets, pushed]
  rfl

/-- The ends of an edge of one graph are where those of an edge of another graph are. -/
def EndsAlike (original copy : PlainGraph V E) (edge edgeCopy : E) : Prop :=
  copy.vertexId? (Endpoints.source edgeCopy) = original.vertexId? (Endpoints.source edge) ∧
    copy.vertexId? (Endpoints.target edgeCopy) = original.vertexId? (Endpoints.target edge)

/-- Whether an edge joins the ends of another one depends on the positions of their ends. -/
theorem EndsAlike.joins_eq [EquivBEq V] {original copy : PlainGraph V E}
    (directed : copy.directed = original.directed) {earlier later earlierCopy laterCopy : E}
    (first : EndsAlike original copy earlier earlierCopy)
    (second : EndsAlike original copy later laterCopy)
    (sources : (original.vertexId? (Endpoints.source later)).isSome)
    (targets : (original.vertexId? (Endpoints.target later)).isSome) :
    copy.joins (Endpoints.source laterCopy) (Endpoints.target laterCopy) earlierCopy =
      original.joins (Endpoints.source later) (Endpoints.target later) earlier := by
  rw [joins, joins, beq_eq_decide sources, beq_eq_decide sources, beq_eq_decide targets,
    beq_eq_decide targets, directed]
  rw [← second.1] at sources ⊢
  rw [← second.2] at targets ⊢
  rw [← first.1, ← first.2, beq_eq_decide sources, beq_eq_decide sources,
    beq_eq_decide targets, beq_eq_decide targets]

theorem Sound.empty (directed allowsParallelEdges : Bool) :
    Sound (⟨directed, allowsParallelEdges, [], []⟩ : PlainGraph V E) :=
  ⟨.nil, by simp, fun _ => .nil⟩

/-- The position of a vertex is the one where it stands. -/
theorem Sound.vertexId?_of_getElem? [EquivBEq V] (sound : graph.Sound) {vertex : V}
    {id : VertexId} (found : graph.vertices[id.index]? = some vertex) :
    graph.vertexId? vertex = some id := by
  obtain ⟨inside, same⟩ := List.getElem?_eq_some_iff.mp found
  apply Option.map_eq_some_iff.mpr
  refine ⟨id.index, List.findIdx?_eq_some_iff_getElem.mpr ⟨inside, ?_, ?_⟩, rfl⟩
  · rw [same]
    exact BEq.refl vertex
  · intro earlier less
    have other := List.pairwise_iff_getElem.mp sound.distinct earlier id.index
      (Nat.lt_trans less inside) inside less
    rw [same] at other
    rw [other]
    exact Bool.false_ne_true

/-- No edge leaves a vertex that is not in the graph. -/
theorem Sound.outEdgeIds_of_none [EquivBEq V] (sound : graph.Sound) {vertex : V}
    (missing : graph.vertexId? vertex = none) : graph.outEdgeIds vertex = [] := by
  rw [outEdgeIds, List.map_eq_nil_iff, List.filter_eq_nil_iff]
  rintro ⟨edge, position⟩ member leaves
  have inside := List.mem_of_getElem? (List.mem_zipIdx_iff_getElem?.mp member)
  obtain ⟨source, target⟩ := sound.ended edge inside
  simp only [PlainGraph.leaves, Bool.or_eq_true, Bool.and_eq_true] at leaves
  rcases leaves with atSource | ⟨-, atTarget⟩
  · rw [vertexId?_congr atSource, missing] at source
    cases source
  · rw [vertexId?_congr atTarget, missing] at target
    cases target

/-- No edge joins a vertex of the graph to one that is not in it. -/
theorem Sound.containsEdge_of_none [EquivBEq V] (sound : graph.Sound) {source target : V}
    (missing : graph.vertexId? source = none ∨ graph.vertexId? target = none) :
    graph.containsEdge source target = false := by
  rw [containsEdge, List.any_eq_false]
  intro edge member joined
  obtain ⟨sources, targets⟩ := sound.ended edge member
  simp only [joins, Bool.or_eq_true, Bool.and_eq_true] at joined
  rcases joined with ⟨first, second⟩ | ⟨⟨-, second⟩, first⟩
  · rw [vertexId?_congr first] at sources
    rw [vertexId?_congr second] at targets
    rcases missing with none | none
    · rw [none] at sources
      cases sources
    · rw [none] at targets
      cases targets
  · rw [vertexId?_congr second] at sources
    rw [vertexId?_congr first] at targets
    rcases missing with none | none
    · rw [none] at targets
      cases targets
    · rw [none] at sources
      cases sources

/-- A new vertex keeps a graph sound. -/
theorem Sound.withVertex (sound : graph.Sound) {vertex : V}
    (missing : graph.vertexId? vertex = none) : (graph.withVertex vertex).Sound where
  distinct := by
    rw [PlainGraph.withVertex, List.pairwise_append]
    refine ⟨sound.distinct, List.pairwise_singleton _ _, ?_⟩
    intro found inside new last
    cases List.mem_singleton.mp last
    exact vertexId?_eq_none_iff.mp missing found inside
  ended := by
    have kept : ∀ other, (graph.vertexId? other).isSome →
        ((graph.withVertex vertex).vertexId? other).isSome := by
      intro other found
      obtain ⟨id, found⟩ := Option.isSome_iff_exists.mp found
      rw [vertexId?_withVertex_of_some found]
      rfl
    intro edge member
    obtain ⟨source, target⟩ := sound.ended edge member
    exact ⟨kept _ source, kept _ target⟩
  simple := sound.simple

/-- A new edge between vertices of a graph keeps it sound. -/
theorem Sound.withEdge (sound : graph.Sound) {edge : E}
    (sources : (graph.vertexId? (Endpoints.source edge)).isSome)
    (targets : (graph.vertexId? (Endpoints.target edge)).isSome)
    (accepted : graph.allowsParallelEdges = false →
      graph.containsEdge (Endpoints.source edge) (Endpoints.target edge) = false) :
    (graph.withEdge edge).Sound where
  distinct := sound.distinct
  ended := by
    intro other member
    rcases List.mem_append.mp member with old | new
    · exact sound.ended other old
    · cases List.mem_singleton.mp new
      exact ⟨sources, targets⟩
  simple := by
    intro single
    apply List.pairwise_append.mpr
    refine ⟨sound.simple single, List.pairwise_singleton _ _, ?_⟩
    intro earlier inside new last
    cases List.mem_singleton.mp last
    have none := List.any_eq_false.mp (accepted single) earlier inside
    exact Bool.eq_false_iff.mpr none

end

end PlainGraph

end GraphMarkup.Graph
