import GraphMarkup.Proofs.Graph.Refinement

/-!
# Parallel edges

Where parallel edges are not allowed, an edge is declined exactly if one that is parallel
to it is stored, so no two of the stored edges are parallel. Only the edges that leave the
source are looked at, and the ends are inserted before that; neither is seen from outside,
because the ends of a stored edge are vertices at which it is listed.
-/

namespace GraphMarkup.Graph

section

variable {V E : Type} [BEq V] [Endpoints E V]

/-- Two edges are parallel if they have the same ends, in an undirected graph in either order. -/
def Parallel (directed : Bool) (a b : E) : Prop :=
  (Endpoints.source a == Endpoints.source b ∧ Endpoints.target a == Endpoints.target b) ∨
    (directed = false ∧
      Endpoints.source a == Endpoints.target b ∧ Endpoints.target a == Endpoints.source b)

namespace PlainGraph

variable {graph : PlainGraph V E} {edge : E}

theorem joins_iff_parallel (graph : PlainGraph V E) (stored edge : E) :
    graph.joins (Endpoints.source edge) (Endpoints.target edge) stored ↔
      Parallel graph.directed stored edge := by
  simp only [joins, Parallel, Bool.or_eq_true, Bool.and_eq_true, Bool.not_eq_true', and_assoc]

/-- An edge is parallel to a stored one if its ends are joined. -/
theorem containsEdge_iff_parallel (graph : PlainGraph V E) (edge : E) :
    graph.containsEdge (Endpoints.source edge) (Endpoints.target edge) ↔
      ∃ stored ∈ graph.edges, Parallel graph.directed stored edge := by
  rw [containsEdge, List.any_eq_true]
  exact exists_congr fun stored => and_congr_right fun _ => graph.joins_iff_parallel stored edge

/-- No two edges of a sound graph are parallel unless that is allowed. -/
theorem Sound.pairwise_not_parallel (sound : graph.Sound)
    (single : graph.allowsParallelEdges = false) :
    graph.edges.Pairwise fun earlier later => ¬Parallel graph.directed earlier later := by
  apply (sound.simple single).imp
  intro earlier later apart parallel
  rw [(graph.joins_iff_parallel earlier later).mpr parallel] at apart
  cases apart

/-- Vertices that are joined by an edge of a sound graph belong to it. -/
theorem Sound.isSome_of_containsEdge [EquivBEq V] (sound : graph.Sound) {source target : V}
    (joined : graph.containsEdge source target) :
    (graph.vertexId? source).isSome ∧ (graph.vertexId? target).isSome := by
  by_contra absent
  rw [not_and_or, Option.not_isSome_iff_eq_none, Option.not_isSome_iff_eq_none] at absent
  rw [sound.containsEdge_of_none absent] at joined
  cases joined

/-- An edge is declined if its ends are joined already and parallel edges are not allowed. -/
theorem pushEdge_eq_none_iff :
    (graph.pushEdge edge).1 = none ↔ graph.allowsParallelEdges = false ∧
      graph.containsEdge (Endpoints.source edge) (Endpoints.target edge) := by
  rw [pushEdge]
  split
  · rename_i declined
    simpa using declined
  · rename_i taken
    simpa using taken

omit [Endpoints E V] in
/-- Inserting a vertex changes no edge and no flag. -/
theorem insertVertex_frame (graph : PlainGraph V E) (vertex : V) :
    (graph.insertVertex vertex).2.edges = graph.edges ∧
      (graph.insertVertex vertex).2.directed = graph.directed ∧
        (graph.insertVertex vertex).2.allowsParallelEdges = graph.allowsParallelEdges := by
  rw [insertVertex]
  split <;> exact ⟨rfl, rfl, rfl⟩

/-- An edge between vertices is declined exactly if it is parallel to a stored one; where an end
is missing there is no such edge. -/
theorem Sound.addEdge_eq_false_iff [EquivBEq V] (sound : graph.Sound) :
    (graph.addEdge edge).1 = .ok false ↔ graph.allowsParallelEdges = false ∧
      ∃ stored ∈ graph.edges, Parallel graph.directed stored edge := by
  rw [← containsEdge_iff_parallel, addEdge, ← isSome_vertexId?, ← isSome_vertexId?]
  split
  · rw [← pushEdge_eq_none_iff, Except.ok.injEq, Option.isSome_eq_false_iff,
      Option.isNone_iff_eq_none]
  · rename_i absent
    constructor
    · intro declined
      cases declined
    · rintro ⟨-, joined⟩
      exact absurd ((Bool.and_eq_true _ _).mpr (sound.isSome_of_containsEdge joined)) absent

/-- An edge that would bring its ends along is declined exactly if it is parallel to a stored
one. -/
theorem addVerticesAndEdge_eq_none_iff :
    (graph.addVerticesAndEdge edge).1 = none ↔ graph.allowsParallelEdges = false ∧
      ∃ stored ∈ graph.edges, Parallel graph.directed stored edge := by
  obtain ⟨edges, directed, allows⟩ := graph.insertVertex_frame (Endpoints.source edge)
  obtain ⟨edges', directed', allows'⟩ :=
    (graph.insertVertex (Endpoints.source edge)).2.insertVertex_frame (Endpoints.target edge)
  rw [addVerticesAndEdge, pushEdge_eq_none_iff, containsEdge_iff_parallel, edges', edges,
    directed', directed, allows', allows]

/-- No operation changes a flag. -/
theorem perform_flags {A : Type} (graph : PlainGraph V E) (operation : Operation V E A) :
    (graph.perform operation).2.directed = graph.directed ∧
      (graph.perform operation).2.allowsParallelEdges = graph.allowsParallelEdges := by
  have pushed (graph : PlainGraph V E) (edge : E) :
      (graph.pushEdge edge).2.directed = graph.directed ∧
        (graph.pushEdge edge).2.allowsParallelEdges = graph.allowsParallelEdges := by
    rw [pushEdge]
    split <;> exact ⟨rfl, rfl⟩
  cases operation with
  | insertVertex vertex => exact (graph.insertVertex_frame vertex).2
  | addVertex vertex =>
    change (graph.addVertex vertex).2.directed = _ ∧
      (graph.addVertex vertex).2.allowsParallelEdges = _
    rw [addVertex_eq]
    exact (graph.insertVertex_frame vertex).2
  | addEdge edge =>
    change (graph.addEdge edge).2.directed = _ ∧ (graph.addEdge edge).2.allowsParallelEdges = _
    rw [addEdge]
    split
    · exact pushed graph edge
    · exact ⟨rfl, rfl⟩
  | addVerticesAndEdge edge =>
    obtain ⟨-, directed, allows⟩ := graph.insertVertex_frame (Endpoints.source edge)
    obtain ⟨-, directed', allows'⟩ :=
      (graph.insertVertex (Endpoints.source edge)).2.insertVertex_frame (Endpoints.target edge)
    rw [← directed, ← allows, ← directed', ← allows']
    exact pushed _ edge
  | setAttributes attributes => exact ⟨rfl, rfl⟩

theorem runOperations_flags {A : Type} (graph : PlainGraph V E)
    (operations : List (Operation V E A)) :
    (runOperations perform graph operations).2.directed = graph.directed ∧
      (runOperations perform graph operations).2.allowsParallelEdges =
        graph.allowsParallelEdges := by
  induction operations generalizing graph with
  | nil => exact ⟨rfl, rfl⟩
  | cons operation operations ih =>
    obtain ⟨directed, allows⟩ := ih (graph.perform operation).2
    exact ⟨directed.trans (graph.perform_flags operation).1,
      allows.trans (graph.perform_flags operation).2⟩

end PlainGraph

end

namespace AdjacencyGraph

variable {V E A : Type} [BEq V] [Hashable V] [Endpoints E V] {graph : AdjacencyGraph V E A}

/-- An edge that is declined leaves everything as it was. -/
theorem pushEdge_of_none {source target : VertexId} {edge : E}
    (declined : (graph.pushEdge source target edge).1 = none) :
    graph.pushEdge source target edge = (none, graph) := by
  rw [pushEdge_eq] at declined ⊢
  split at declined
  · rw [if_pos ‹_›]
  · cases declined

/-- An edge that is not taken, for whatever reason, leaves everything as it was. -/
theorem addEdge_of_not_taken {edge : E} (notTaken : (graph.addEdge edge).1 ≠ .ok true) :
    (graph.addEdge edge).2 = graph := by
  rw [addEdge] at notTaken ⊢
  split
  · rename_i source target foundSource foundTarget
    rw [foundSource, foundTarget] at notTaken
    have declined : (graph.pushEdge source target edge).1 = none := by
      cases pushed : (graph.pushEdge source target edge).1 with
      | none => rfl
      | some id =>
        apply absurd _ notTaken
        change Except.ok (graph.pushEdge source target edge).1.isSome = _
        rw [pushed]
        rfl
    exact congrArg Prod.snd (pushEdge_of_none declined)
  · rfl

variable [EquivBEq V] [LawfulHashable V]

/-- An edge that is declined leaves no end behind: its ends were vertices before, because those of
the edge that it is parallel to were. -/
theorem Consistent.addVerticesAndEdge_of_declined (consistent : graph.Consistent) {edge : E}
    (declined : (graph.addVerticesAndEdge edge).1 = none) :
    (graph.addVerticesAndEdge edge).2 = graph := by
  have joined := declined
  rw [(consistent.addVerticesAndEdge edge).value, PlainGraph.addVerticesAndEdge_eq_none_iff,
    ← PlainGraph.containsEdge_iff_parallel] at joined
  obtain ⟨sources, targets⟩ := consistent.sound.isSome_of_containsEdge joined.2
  rw [← consistent.indexed, Option.isSome_iff_exists] at sources targets
  obtain ⟨source, foundSource⟩ := sources
  obtain ⟨target, foundTarget⟩ := targets
  have pushed : graph.addVerticesAndEdge edge = graph.pushEdge source target edge := by
    rw [AdjacencyGraph.addVerticesAndEdge, insertVertex_of_some foundSource]
    dsimp only
    rw [insertVertex_of_some foundTarget]
  rw [pushed] at declined ⊢
  rw [pushEdge_of_none declined]

/-- However a graph is built: where parallel edges are not allowed, no two stored edges are
parallel; an edge is declined exactly if that is so and a parallel one is stored; and an edge that
is not taken changes nothing at all. -/
theorem runOperations_suppresses (directed allowsParallelEdges : Bool) (attributes : A)
    (operations : List (Operation V E A)) :
    let graph :=
      (runOperations perform (empty directed allowsParallelEdges attributes) operations).2
    (allowsParallelEdges = false →
      graph.listing.edges.Pairwise fun earlier later => ¬Parallel directed earlier later) ∧
    ∀ edge,
      ((graph.addEdge edge).1 = .ok false ↔ allowsParallelEdges = false ∧
        ∃ stored ∈ graph.listing.edges, Parallel directed stored edge) ∧
      ((graph.addVerticesAndEdge edge).1 = none ↔ allowsParallelEdges = false ∧
        ∃ stored ∈ graph.listing.edges, Parallel directed stored edge) ∧
      ((graph.addEdge edge).1 ≠ .ok true → (graph.addEdge edge).2 = graph) ∧
      ((graph.addVerticesAndEdge edge).1 = none → (graph.addVerticesAndEdge edge).2 = graph) := by
  intro graph
  obtain ⟨-, plain, consistent⟩ :=
    (Consistent.empty (V := V) (E := E) directed allowsParallelEdges attributes).runOperations
      operations
  obtain ⟨sameDirected, sameAllows⟩ := PlainGraph.runOperations_flags
    (AdjacencyGraph.empty directed allowsParallelEdges attributes : AdjacencyGraph V E A).plain
    operations
  rw [← plain] at sameDirected sameAllows
  have isDirected : graph.plain.directed = directed := sameDirected
  have allows : graph.plain.allowsParallelEdges = allowsParallelEdges := sameAllows
  rw [← isDirected, ← allows]
  refine ⟨consistent.sound.pairwise_not_parallel, fun edge => ⟨?_, ?_, addEdge_of_not_taken,
    consistent.addVerticesAndEdge_of_declined⟩⟩
  · rw [(consistent.addEdge edge).value]
    exact consistent.sound.addEdge_eq_false_iff
  · rw [(consistent.addVerticesAndEdge edge).value]
    exact PlainGraph.addVerticesAndEdge_eq_none_iff

/-- In an undirected graph with an edge, a loop and a vertex behind them, the reverse of the edge
and the loop are declined, and an edge to a vertex that is not there is an error; nothing
changes. -/
theorem declined_edgeAndLoop :
    let operations : List (Operation Nat (Edge Nat) Unit) :=
      [.addVerticesAndEdge ⟨0, 1⟩, .addVerticesAndEdge ⟨2, 2⟩, .insertVertex 3]
    let graph := (runOperations perform (AdjacencyGraph.empty false false ()) operations).2
    (graph.listing.edges.Pairwise fun earlier later => ¬Parallel false earlier later) ∧
      graph.addEdge ⟨1, 0⟩ = (.ok false, graph) ∧
      graph.addVerticesAndEdge ⟨2, 2⟩ = (none, graph) ∧
      graph.addEdge ⟨3, 4⟩ = (.error .absentEndpoint, graph) := by
  intro operations graph
  obtain ⟨apart, all⟩ := runOperations_suppresses false false () operations
  obtain ⟨-, plain, consistent⟩ :=
    (Consistent.empty (V := Nat) (E := Edge Nat) false false ()).runOperations operations
  have built : graph.plain = ⟨false, false, [0, 1, 2, 3], [⟨0, 1⟩, ⟨2, 2⟩]⟩ := plain
  have edges : graph.listing.edges = [⟨0, 1⟩, ⟨2, 2⟩] := congrArg PlainGraph.edges built
  have unanswered : (graph.addEdge ⟨3, 4⟩).1 = .error .absentEndpoint := by
    rw [(consistent.addEdge _).value, plain]
    decide
  obtain ⟨reversed, -, kept, -⟩ := all ⟨1, 0⟩
  obtain ⟨-, repeated, -, keptAll⟩ := all ⟨2, 2⟩
  obtain ⟨-, -, keptToo, -⟩ := all ⟨3, 4⟩
  have declined := reversed.mpr ⟨rfl, ⟨0, 1⟩, by rw [edges]; decide, Or.inr (by decide)⟩
  have declinedLoop := repeated.mpr ⟨rfl, ⟨2, 2⟩, by rw [edges]; decide, Or.inl (by decide)⟩
  refine ⟨apart rfl, Prod.ext declined (kept ?_), Prod.ext declinedLoop (keptAll declinedLoop),
    Prod.ext unanswered (keptToo ?_)⟩
  · rw [declined]
    nofun
  · rw [unanswered]
    nofun

end AdjacencyGraph

end GraphMarkup.Graph
