import GraphMarkup.Proofs.Graph.Plain

/-!
# Adjacency graphs refine plain graphs

An adjacency graph is consistent if its index has the positions of its vertices and if
the list of every vertex holds the positions of the edges that leave it, in order. Each
operation keeps this, gives the value that it gives on the plain graph of the same
vertices and edges, and does to the adjacency graph what it does to the plain one.
-/

namespace GraphMarkup.Graph

namespace AdjacencyGraph

section

variable {V E A : Type} [BEq V] [Hashable V]

/-- The vertices and edges of a graph as lists. -/
def plain (graph : AdjacencyGraph V E A) : PlainGraph V E :=
  ⟨graph.directed, graph.allowsParallelEdges, graph.vertices.toList, graph.edges.toList⟩

theorem vertex?_eq (graph : AdjacencyGraph V E A) (id : VertexId) :
    graph.vertex? id = graph.plain.vertices[id.index]? :=
  Array.getElem?_toList.symm

theorem edge?_eq (graph : AdjacencyGraph V E A) (id : EdgeId) :
    graph.edge? id = graph.plain.edges[id.index]? :=
  Array.getElem?_toList.symm

variable [Endpoints E V]

/-- What all operations of a graph preserve. -/
structure Consistent (graph : AdjacencyGraph V E A) : Prop where
  sound : graph.plain.Sound
  /-- The index has the positions of the vertices. -/
  indexed : ∀ vertex, graph.vertexId? vertex = graph.plain.vertexId? vertex
  sized : graph.outEdges.size = graph.vertices.size
  /-- The list of a vertex holds the edges that leave it. -/
  listed : ∀ id vertex, graph.vertex? id = some vertex →
    (graph.outEdgeIds id).toList = graph.plain.outEdgeIds vertex

/-- The result of an operation is that of the operation on plain graphs. -/
structure Follows {α : Type} (result : α × AdjacencyGraph V E A)
    (expected : α × PlainGraph V E) : Prop where
  value : result.1 = expected.1
  plain : result.2.plain = expected.2
  consistent : result.2.Consistent

end

/-! ## Vertices -/

section

variable {V E A : Type} [BEq V] [Hashable V] {graph : AdjacencyGraph V E A}

/-- The graph with a vertex behind the others. -/
def withVertex (graph : AdjacencyGraph V E A) (vertex : V) : AdjacencyGraph V E A :=
  { graph with
    vertices := graph.vertices.push vertex
    index := graph.index.insert vertex ⟨graph.vertices.size⟩
    outEdges := graph.outEdges.push #[] }

theorem insertVertex_of_some {vertex : V} {id : VertexId}
    (found : graph.vertexId? vertex = some id) : graph.insertVertex vertex = (id, graph) := by
  rw [vertexId?] at found
  rw [insertVertex, found]

theorem insertVertex_of_none {vertex : V} (missing : graph.vertexId? vertex = none) :
    graph.insertVertex vertex = (⟨graph.vertices.size⟩, graph.withVertex vertex) := by
  rw [vertexId?] at missing
  rw [insertVertex, missing]
  rfl

/-- A vertex changes nothing about the attributes of a graph. -/
theorem attributes_addVertex (graph : AdjacencyGraph V E A) (vertex : V) :
    (graph.addVertex vertex).2.attributes = graph.attributes := by
  change (graph.insertVertex vertex).2.attributes = graph.attributes
  rw [insertVertex]
  split <;> rfl

theorem plain_withVertex (vertex : V) :
    (graph.withVertex vertex).plain = graph.plain.withVertex vertex := by
  simp [plain, withVertex, PlainGraph.withVertex]

/-- No edge leaves a vertex behind the others yet. -/
theorem outEdgeIds_withVertex (vertex : V) (id : VertexId) :
    (graph.withVertex vertex).outEdgeIds id = graph.outEdgeIds id := by
  rw [outEdgeIds, outEdgeIds, withVertex, Array.getD_eq_getD_getElem?,
    Array.getD_eq_getD_getElem?, Array.getElem?_push]
  split
  · rename_i last
    rw [last, Array.getElem?_size]
    rfl
  · rfl

variable [EquivBEq V] [LawfulHashable V]

theorem vertexId?_withVertex (vertex other : V) :
    (graph.withVertex vertex).vertexId? other =
      if vertex == other then some ⟨graph.vertices.size⟩ else graph.vertexId? other :=
  Std.HashMap.getElem?_insert

theorem isSome_vertexId? (graph : AdjacencyGraph V E A) (vertex : V) :
    (graph.vertexId? vertex).isSome = graph.containsVertex vertex :=
  Std.HashMap.isSome_getElem?_eq_contains

/-- Equal vertices belong to the same graphs. -/
theorem containsVertex_congr {a b : V} (equal : a == b) :
    graph.containsVertex a = graph.containsVertex b :=
  Std.HashMap.contains_congr equal

/-- A vertex that is added belongs to the graph from then on, as all others do that did. -/
theorem containsVertex_addVertex (graph : AdjacencyGraph V E A) (vertex other : V) :
    (graph.addVertex vertex).2.containsVertex other =
      (vertex == other || graph.containsVertex other) := by
  change (graph.insertVertex vertex).2.containsVertex other = _
  cases known : graph.vertexId? vertex with
  | some id =>
    have contained : graph.containsVertex vertex := by
      rw [← isSome_vertexId?, known]
      rfl
    rw [insertVertex_of_some known]
    by_cases equal : vertex == other
    · rw [equal, Bool.true_or, ← containsVertex_congr equal, contained]
    · rw [Bool.not_eq_true _ |>.mp equal, Bool.false_or]
  | none =>
    rw [insertVertex_of_none known]
    exact Std.HashMap.contains_insert

variable [Endpoints E V]

/-- A new vertex keeps a graph consistent. -/
theorem Consistent.withVertex (consistent : graph.Consistent) {vertex : V}
    (missing : graph.plain.vertexId? vertex = none) : (graph.withVertex vertex).Consistent where
  sound := by
    rw [plain_withVertex]
    exact consistent.sound.withVertex missing
  indexed := by
    intro other
    rw [vertexId?_withVertex, plain_withVertex, PlainGraph.vertexId?_withVertex,
      consistent.indexed]
    split
    · rename_i equal
      rw [← PlainGraph.vertexId?_congr equal, missing]
      rfl
    · exact Option.or_none.symm
  sized := by
    rw [AdjacencyGraph.withVertex, Array.size_push, Array.size_push, consistent.sized]
  listed := by
    intro id other found
    rw [outEdgeIds_withVertex, plain_withVertex, PlainGraph.outEdgeIds_withVertex]
    have pushed : (graph.withVertex vertex).vertex? id =
        if id.index = graph.vertices.size then some vertex else graph.vertex? id :=
      Array.getElem?_push
    rw [pushed] at found
    split at found
    · rename_i last
      cases found
      rw [consistent.sound.outEdgeIds_of_none missing, outEdgeIds, Array.getD_eq_getD_getElem?,
        last, ← consistent.sized, Array.getElem?_size]
      rfl
    · exact consistent.listed id other found

/-- Vertices are found and added as in a plain graph. -/
theorem Consistent.insertVertex (consistent : graph.Consistent) (vertex : V) :
    Follows (graph.insertVertex vertex) (graph.plain.insertVertex vertex) := by
  cases known : graph.plain.vertexId? vertex with
  | some id =>
    rw [insertVertex_of_some ((consistent.indexed vertex).trans known),
      PlainGraph.insertVertex_of_some known]
    exact ⟨rfl, rfl, consistent⟩
  | none =>
    rw [insertVertex_of_none ((consistent.indexed vertex).trans known),
      PlainGraph.insertVertex_of_none known]
    exact ⟨rfl, plain_withVertex vertex, consistent.withVertex known⟩

/-- A vertex is new as it is in a plain graph. -/
theorem Consistent.addVertex (consistent : graph.Consistent) (vertex : V) :
    Follows (graph.addVertex vertex) (graph.plain.addVertex vertex) := by
  have inserted := consistent.insertVertex vertex
  rw [PlainGraph.addVertex_eq]
  refine ⟨?_, inserted.plain, inserted.consistent⟩
  rw [AdjacencyGraph.addVertex]
  cases known : graph.plain.vertexId? vertex with
  | some id =>
    rw [insertVertex_of_some ((consistent.indexed vertex).trans known)]
    simp
  | none =>
    rw [insertVertex_of_none ((consistent.indexed vertex).trans known)]
    have longer : graph.vertices.size < (graph.withVertex vertex).vertices.size := by
      rw [AdjacencyGraph.withVertex, Array.size_push]
      exact Nat.lt_succ_self _
    exact decide_eq_true longer

end

/-! ## Edges -/

section

variable {V E A : Type} [BEq V] [Hashable V] [Endpoints E V] {graph : AdjacencyGraph V E A}

/-- The lists of leaving edges with an edge between two positions behind the others. -/
def outEdgesWith (graph : AdjacencyGraph V E A) (source target : VertexId) :
    Array (Array EdgeId) :=
  let outEdges := graph.outEdges.modify source.index (·.push ⟨graph.edges.size⟩)
  if !graph.directed && source != target then
    outEdges.modify target.index (·.push ⟨graph.edges.size⟩)
  else outEdges

/-- The graph with an edge between two positions behind the others. -/
def withEdge (graph : AdjacencyGraph V E A) (source target : VertexId) (edge : E) :
    AdjacencyGraph V E A :=
  { graph with
    edges := graph.edges.push edge
    outEdges := graph.outEdgesWith source target }

/-- An edge is refused if it is parallel to another one and that is not allowed; otherwise it
is added behind the others. -/
theorem pushEdge_eq (source target : VertexId) (edge : E) :
    graph.pushEdge source target edge =
      if !graph.allowsParallelEdges && graph.connects source target then (none, graph)
      else (some ⟨graph.edges.size⟩, graph.withEdge source target edge) :=
  rfl

/-- An edge changes nothing about the attributes of a graph. -/
theorem attributes_addEdge (graph : AdjacencyGraph V E A) (edge : E) :
    (graph.addEdge edge).2.attributes = graph.attributes := by
  rw [addEdge]
  split
  · change (graph.pushEdge _ _ edge).2.attributes = graph.attributes
    rw [pushEdge_eq]
    split <;> rfl
  · rfl

/-- An edge makes no difference to which vertices belong to a graph. -/
theorem containsVertex_addEdge (graph : AdjacencyGraph V E A) (edge : E) (vertex : V) :
    (graph.addEdge edge).2.containsVertex vertex = graph.containsVertex vertex := by
  rw [addEdge]
  split
  · change (graph.pushEdge _ _ edge).2.containsVertex vertex = _
    rw [pushEdge_eq]
    split <;> rfl
  · rfl

/-- An edge is not refused if both its ends belong to the graph. -/
theorem exists_addEdge_eq_ok_iff [EquivBEq V] [LawfulHashable V] (graph : AdjacencyGraph V E A)
    (edge : E) :
    (∃ taken, (graph.addEdge edge).1 = .ok taken) ↔
      graph.containsVertex (Endpoints.source edge) ∧
        graph.containsVertex (Endpoints.target edge) := by
  rw [← isSome_vertexId?, ← isSome_vertexId?, addEdge]
  cases graph.vertexId? (Endpoints.source edge) with
  | none => simp
  | some source => cases graph.vertexId? (Endpoints.target edge) <;> simp

omit [Endpoints E V] in
theorem plain_withEdge (source target : VertexId) (edge : E) :
    (graph.withEdge source target edge).plain = graph.plain.withEdge edge := by
  simp [plain, withEdge, PlainGraph.withEdge]

/-- Pushing onto the list at one position leaves the others alone. -/
theorem toList_getD_modify_push {lists : Array (Array EdgeId)} (position : VertexId)
    {other : VertexId} (new : EdgeId) (inside : other.index < lists.size) :
    ((lists.modify position.index (·.push new)).getD other.index #[]).toList =
      (lists.getD other.index #[]).toList ++ if position == other then [new] else [] := by
  rw [Array.getD_eq_getD_getElem?, Array.getElem?_modify, Array.getD_eq_getD_getElem?,
    Array.getElem?_eq_getElem inside]
  by_cases same : position = other
  · subst same
    rw [if_pos rfl, if_pos (beq_self_eq_true position)]
    exact Array.toList_push
  · have different : ¬position.index = other.index := by
      intro equal
      exact same (congrArg VertexId.mk equal)
    rw [if_neg different, if_neg (by simpa using same), List.append_nil]

omit [Endpoints E V] in
/-- The new edge is listed at its source and, in an undirected graph, once at its target. -/
theorem toList_outEdgeIds_withEdge (source target : VertexId) (edge : E) {id : VertexId}
    (inside : id.index < graph.outEdges.size) :
    ((graph.withEdge source target edge).outEdgeIds id).toList =
      (graph.outEdgeIds id).toList ++
        if source == id || (!graph.directed && target == id) then [⟨graph.edges.size⟩]
        else [] := by
  change ((graph.outEdgesWith source target).getD id.index #[]).toList = _
  rw [outEdgesWith]
  split
  · rename_i both
    simp only [Bool.and_eq_true, Bool.not_eq_true', bne_iff_ne] at both
    rw [toList_getD_modify_push target _ (by rwa [Array.size_modify]),
      toList_getD_modify_push source _ inside, both.1, List.append_assoc]
    congr 1
    by_cases atSource : source = id
    · have elsewhere : ¬target = id := fun same => both.2 (atSource.trans same.symm)
      simp [atSource, elsewhere]
    · simp [atSource]
  · rename_i one
    have same : (source == id || (!graph.directed && target == id)) = (source == id) := by
      by_cases directed : graph.directed
      · simp [directed]
      · have loop : source = target := by simpa [directed] using one
        simp [loop]
    rw [toList_getD_modify_push source _ inside, same]
    rfl

section

variable [EquivBEq V]

/-- The positions of two vertices are the same if they are equal. -/
theorem Consistent.beq_iff (consistent : graph.Consistent) {a b : V} {first second : VertexId}
    (foundFirst : graph.vertexId? a = some first) (foundSecond : graph.vertexId? b = some second) :
    (first == second) = (a == b) := by
  rw [consistent.indexed] at foundFirst foundSecond
  have same := PlainGraph.vertexId?_eq_some_iff_beq foundSecond a
  rw [foundFirst, Option.some.injEq] at same
  rw [Bool.eq_iff_iff, ← same]
  exact beq_iff_eq

omit [EquivBEq V] in
/-- An edge of a consistent graph ends in vertices. -/
theorem Consistent.ended (consistent : graph.Consistent) {edge : E}
    (member : edge ∈ graph.plain.edges) :
    ∃ source target, graph.vertexId? (Endpoints.source edge) = some source ∧
      graph.vertexId? (Endpoints.target edge) = some target := by
  obtain ⟨source, target⟩ := consistent.sound.ended edge member
  rw [← consistent.indexed] at source target
  exact ⟨_, _, Option.eq_some_of_isSome source, Option.eq_some_of_isSome target⟩

omit [EquivBEq V] in
/-- The position of a vertex is one of the positions. -/
theorem Consistent.exists_vertex (consistent : graph.Consistent) {vertex : V} {id : VertexId}
    (found : graph.vertexId? vertex = some id) :
    ∃ other, graph.vertex? id = some other ∧ other == vertex := by
  rw [consistent.indexed] at found
  rw [vertex?_eq]
  exact PlainGraph.getElem?_of_vertexId?_eq found

omit [EquivBEq V] in
theorem Consistent.lt_size (consistent : graph.Consistent) {vertex : V} {id : VertexId}
    (found : graph.vertexId? vertex = some id) : id.index < graph.outEdges.size := by
  obtain ⟨other, inside, -⟩ := consistent.exists_vertex found
  rw [consistent.sized]
  exact (Array.getElem?_eq_some_iff.mp inside).1

/-- The list at the position of a vertex holds the edges that leave the vertex. -/
theorem Consistent.toList_outEdgeIds (consistent : graph.Consistent) {vertex : V} {id : VertexId}
    (found : graph.vertexId? vertex = some id) :
    (graph.outEdgeIds id).toList = graph.plain.outEdgeIds vertex := by
  obtain ⟨other, inside, equal⟩ := consistent.exists_vertex found
  rw [consistent.listed id other inside, PlainGraph.outEdgeIds_congr equal]

/-- An edge joins two positions if it joins the vertices there. -/
theorem Consistent.joins_eq (consistent : graph.Consistent) {source target : V}
    {sourceId targetId : VertexId} (foundSource : graph.vertexId? source = some sourceId)
    (foundTarget : graph.vertexId? target = some targetId) {id : EdgeId} {edge : E}
    (found : graph.edge? id = some edge) :
    graph.joins sourceId targetId id = graph.plain.joins source target edge := by
  have member : edge ∈ graph.plain.edges := List.mem_of_getElem? ((edge?_eq graph id) ▸ found)
  obtain ⟨first, second, foundFirst, foundSecond⟩ := consistent.ended member
  rw [joins, found]
  dsimp only
  rw [foundFirst, foundSecond]
  dsimp only
  rw [consistent.beq_iff foundFirst foundSource, consistent.beq_iff foundSecond foundTarget,
    consistent.beq_iff foundFirst foundTarget, consistent.beq_iff foundSecond foundSource]
  rfl

/-- Two positions are connected if some edge joins the vertices there. -/
theorem Consistent.connects_eq (consistent : graph.Consistent) {source target : V}
    {sourceId targetId : VertexId} (foundSource : graph.vertexId? source = some sourceId)
    (foundTarget : graph.vertexId? target = some targetId) :
    graph.connects sourceId targetId = graph.plain.containsEdge source target := by
  rw [connects, ← Array.any_toList, consistent.toList_outEdgeIds foundSource,
    ← PlainGraph.any_joins_outEdgesOf, ← PlainGraph.filterMap_outEdgeIds, List.any_filterMap]
  rw [Bool.eq_iff_iff, List.any_eq_true, List.any_eq_true]
  have same : ∀ id ∈ graph.plain.outEdgeIds source, graph.joins sourceId targetId id =
      (graph.plain.edges[id.index]?).any (graph.plain.joins source target) := by
    intro id member
    obtain ⟨edge, -, found⟩ := PlainGraph.exists_edge_of_mem_outEdgeIds member
    rw [found, consistent.joins_eq foundSource foundTarget ((edge?_eq graph id).trans found)]
    rfl
  constructor
  · rintro ⟨id, member, joined⟩
    exact ⟨id, member, (same id member).symm.trans joined⟩
  · rintro ⟨id, member, joined⟩
    exact ⟨id, member, (same id member).trans joined⟩

/-- A new edge between vertices of a graph keeps it consistent. -/
theorem Consistent.withEdge (consistent : graph.Consistent) {source target : VertexId} {edge : E}
    (foundSource : graph.vertexId? (Endpoints.source edge) = some source)
    (foundTarget : graph.vertexId? (Endpoints.target edge) = some target)
    (accepted : graph.plain.allowsParallelEdges = false →
      graph.plain.containsEdge (Endpoints.source edge) (Endpoints.target edge) = false) :
    (graph.withEdge source target edge).Consistent where
  sound := by
    rw [plain_withEdge]
    apply consistent.sound.withEdge
    · rw [← consistent.indexed, foundSource]
      rfl
    · rw [← consistent.indexed, foundTarget]
      rfl
    · exact accepted
  indexed := by
    rw [plain_withEdge]
    exact consistent.indexed
  sized := by
    change (graph.outEdgesWith source target).size = graph.vertices.size
    rw [outEdgesWith]
    split
    · rw [Array.size_modify, Array.size_modify, consistent.sized]
    · rw [Array.size_modify, consistent.sized]
  listed := by
    intro id vertex found
    have old : graph.vertex? id = some vertex := found
    have position : graph.vertexId? vertex = some id := by
      rw [consistent.indexed]
      exact consistent.sound.vertexId?_of_getElem? ((vertex?_eq graph id).symm.trans old)
    have inside := consistent.lt_size position
    rw [toList_outEdgeIds_withEdge source target edge inside, plain_withEdge,
      PlainGraph.outEdgeIds_withEdge, consistent.listed id vertex old,
      consistent.beq_iff foundSource position, consistent.beq_iff foundTarget position]
    rfl

/-- An edge is added or refused as in a plain graph. -/
theorem Consistent.pushEdge (consistent : graph.Consistent) {source target : VertexId} {edge : E}
    (foundSource : graph.vertexId? (Endpoints.source edge) = some source)
    (foundTarget : graph.vertexId? (Endpoints.target edge) = some target) :
    Follows (graph.pushEdge source target edge) (graph.plain.pushEdge edge) := by
  have connected := consistent.connects_eq foundSource foundTarget
  have allows : graph.plain.allowsParallelEdges = graph.allowsParallelEdges := rfl
  rw [pushEdge_eq, PlainGraph.pushEdge, connected, allows]
  split
  · exact ⟨rfl, rfl, consistent⟩
  · rename_i notRefused
    refine ⟨rfl, plain_withEdge source target edge, ?_⟩
    apply consistent.withEdge foundSource foundTarget
    intro single
    rw [allows] at single
    rw [single] at notRefused
    simpa using notRefused

end

variable [EquivBEq V]

/-- An edge between vertices of the graph is added as to a plain graph. -/
theorem Consistent.addEdge (consistent : graph.Consistent) (edge : E) :
    Follows (graph.addEdge edge) (graph.plain.addEdge edge) := by
  rw [PlainGraph.addEdge, ← PlainGraph.isSome_vertexId?, ← PlainGraph.isSome_vertexId?,
    ← consistent.indexed, ← consistent.indexed, AdjacencyGraph.addEdge]
  cases foundSource : graph.vertexId? (Endpoints.source edge) with
  | none => exact ⟨rfl, rfl, consistent⟩
  | some source =>
    cases foundTarget : graph.vertexId? (Endpoints.target edge) with
    | none => exact ⟨rfl, rfl, consistent⟩
    | some target =>
      have pushed := consistent.pushEdge foundSource foundTarget
      refine ⟨?_, pushed.plain, pushed.consistent⟩
      rw [← pushed.value]
      rfl

/-- An edge is added with its ends as to a plain graph. -/
theorem Consistent.addVerticesAndEdge [LawfulHashable V] (consistent : graph.Consistent)
    (edge : E) :
    Follows (graph.addVerticesAndEdge edge) (graph.plain.addVerticesAndEdge edge) := by
  have first := consistent.insertVertex (Endpoints.source edge)
  have second := first.consistent.insertVertex (Endpoints.target edge)
  have foundSource : ((graph.plain.insertVertex (Endpoints.source edge)).2.insertVertex
      (Endpoints.target edge)).2.vertexId? (Endpoints.source edge) =
        some (graph.plain.insertVertex (Endpoints.source edge)).1 :=
    PlainGraph.vertexId?_insertVertex_of_some (PlainGraph.vertexId?_insertVertex _ _)
  have foundTarget := PlainGraph.vertexId?_insertVertex
    (graph.plain.insertVertex (Endpoints.source edge)).2 (Endpoints.target edge)
  rw [first.plain] at second
  rw [← second.plain, ← second.consistent.indexed] at foundSource foundTarget
  rw [← first.value] at foundSource
  rw [← second.value] at foundTarget
  have pushed := second.consistent.pushEdge foundSource foundTarget
  rw [second.plain] at pushed
  exact pushed

end

end AdjacencyGraph

end GraphMarkup.Graph
