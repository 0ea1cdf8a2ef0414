import GraphMarkup.Proofs.Document.WrittenMeaning
import GraphMarkup.Proofs.Graph.Extension

/-!
# Filling adjacency graphs

Reading a written document onto an adjacency graph sets its attributes and adds copies
of the vertices and of the edges that were written, in their order. Copies of edges are
refused or taken without an error as long as they end at vertices.
-/

namespace GraphMarkup.Document

open GraphMarkup.Attributes
open GraphMarkup.Graph

variable {V E A : Type} [BEq V] [Hashable V] [Endpoints E V]
  {codecs : Codecs V E A} {factories : Factories V E} {indent? : Option Nat}
  {identities : Identities V E}

/-- A vertex is read back as a copy. -/
def ReadsVertex (codecs : Codecs V E A) (factories : Factories V E)
    (identities : Identities V E) (vertex copy : V) : Prop :=
  codecs.vertex.readEntries (codecs.vertex.write vertex)
    (codecs.vertex.applyDefaults (factories.vertex (identities.vertex vertex))) = .ok copy

/-- An edge at a position is read back as a copy, between the vertices that are known by the ids of
its ends. -/
def ReadsEdge (codecs : Codecs V E A) (factories : Factories V E)
    (identities : Identities V E) (table : VertexTable V) (entry : E × Nat) (copy : E) : Prop :=
  ∃ source target,
    table.lookup (identities.vertex (Endpoints.source entry.1)) = some source ∧
      table.lookup (identities.vertex (Endpoints.target entry.1)) = some target ∧
        codecs.edge.readEntries (codecs.edge.write entry.1)
          (codecs.edge.applyDefaults
            (factories.edge source target (identities.edge entry.2 entry.1))) = .ok copy

/-- The data of a graph set its attributes. -/
theorem fills_dataOutlines {entries : List (String × String)}
    {before : Filling (AdjacencyGraph V E A) V} {attributes : A}
    (read : codecs.graph.readEntries entries before.graph.attributes = .ok attributes) :
    Fills codecs factories indent? (entries.map dataOutline) before
      ⟨{ before.graph with attributes := attributes }, before.vertices⟩ := by
  induction entries generalizing before with
  | nil =>
    cases read
    exact .nil before
  | cons entry entries ih =>
    rw [Codec.readEntries, List.foldlM_cons] at read
    cases first : codecs.graph.read entry.1 entry.2 before.graph.attributes with
    | error cause =>
      rw [first] at read
      cases read
    | ok middle =>
      rw [first] at read
      have set : Fills codecs factories indent? [dataOutline entry] before
          ⟨{ before.graph with attributes := middle }, before.vertices⟩ :=
        fills_data first
      exact set.cons (ih read)

/-- The nodes of a document add copies of vertices. -/
theorem fills_nodes {vertices copies : List V}
    (reads : List.Forall₂ (ReadsVertex codecs factories identities) vertices copies)
    (before : Filling (AdjacencyGraph V E A) V) :
    Fills codecs factories indent? (vertices.map (nodeOutline codecs identities)) before
      ⟨before.graph.addVertices copies,
        ((vertices.map identities.vertex).zip copies).reverse ++ before.vertices⟩ := by
  induction reads generalizing before with
  | nil => exact .nil before
  | @cons vertex copy vertices copies first _ ih =>
    have others := ih ⟨(before.graph.addVertex copy).2,
      (identities.vertex vertex, copy) :: before.vertices⟩
    rw [List.map_cons, List.map_cons, List.zip_cons_cons, List.reverse_cons, List.append_assoc]
    exact (fills_node first).cons others

/-- The edges of a document add copies of edges between vertices. -/
theorem fills_edges [EquivBEq V] [LawfulHashable V] {entries : List (E × Nat)} {copies : List E}
    {before : Filling (AdjacencyGraph V E A) V}
    (reads : List.Forall₂ (ReadsEdge codecs factories identities before.vertices) entries copies)
    (ended : ∀ copy ∈ copies, before.graph.containsVertex (Endpoints.source copy) ∧
      before.graph.containsVertex (Endpoints.target copy)) :
    Fills codecs factories indent?
      (entries.map fun entry => edgeOutline codecs identities entry.2 entry.1) before
      ⟨before.graph.addEdges copies, before.vertices⟩ := by
  generalize table : before.vertices = vertices at reads
  induction reads generalizing before with
  | nil =>
    subst table
    exact .nil before
  | @cons entry copy entries copies first _ ih =>
    subst table
    obtain ⟨source, target, sources, targets, read⟩ := first
    obtain ⟨taken, answer⟩ := (AdjacencyGraph.exists_addEdge_eq_ok_iff before.graph copy).mpr
      (ended copy List.mem_cons_self)
    have adds : Target.addEdge copy before.graph = (.ok taken, (before.graph.addEdge copy).2) :=
      Prod.ext (congrArg (Except.mapError Error.graph) answer) rfl
    have stillEnded : ∀ other ∈ copies,
        (before.graph.addEdge copy).2.containsVertex (Endpoints.source other) ∧
          (before.graph.addEdge copy).2.containsVertex (Endpoints.target other) := by
      intro other member
      rw [AdjacencyGraph.containsVertex_addEdge, AdjacencyGraph.containsVertex_addEdge]
      exact ended other (List.mem_cons_of_mem _ member)
    have added : Fills codecs factories indent?
        [edgeOutline codecs identities entry.2 entry.1] before
        ⟨(before.graph.addEdge copy).2, before.vertices⟩ :=
      fills_edge sources targets read adds
    exact added.cons (ih stillEnded rfl)

/-- What stands in a graph element sets the attributes of a graph and adds copies of vertices and
then copies of edges between them. -/
theorem fills_graphOutlines [EquivBEq V] [LawfulHashable V] {listing : Listing V E A}
    {graph : AdjacencyGraph V E A} {attributes : A} {copies : List V} {edgeCopies : List E}
    (read : codecs.graph.readEntries (codecs.graph.write listing.attributes) graph.attributes =
      .ok attributes)
    (reads : List.Forall₂ (ReadsVertex codecs factories identities) listing.vertices copies)
    (edgesRead : List.Forall₂ (ReadsEdge codecs factories identities
      ((listing.vertices.map identities.vertex).zip copies).reverse) listing.edges.zipIdx
      edgeCopies)
    (ended : ∀ copy ∈ edgeCopies, copies.any (· == Endpoints.source copy) ∧
      copies.any (· == Endpoints.target copy)) :
    Fills codecs factories indent? (graphOutlines codecs identities listing) ⟨graph, []⟩
      ⟨({ graph with attributes := attributes }.addVertices copies).addEdges edgeCopies,
        ((listing.vertices.map identities.vertex).zip copies).reverse⟩ := by
  let blank : AdjacencyGraph V E A := { graph with attributes := attributes }
  let table := ((listing.vertices.map identities.vertex).zip copies).reverse
  have data : Fills codecs factories indent? (dataOutlines codecs.graph listing.attributes)
      ⟨graph, []⟩ ⟨blank, []⟩ :=
    fills_dataOutlines read
  have nodes : Fills codecs factories indent?
      (listing.vertices.map (nodeOutline codecs identities)) ⟨blank, []⟩
      ⟨blank.addVertices copies, table ++ []⟩ :=
    fills_nodes reads ⟨blank, []⟩
  rw [List.append_nil] at nodes
  have contained : ∀ copy ∈ edgeCopies,
      (blank.addVertices copies).containsVertex (Endpoints.source copy) ∧
        (blank.addVertices copies).containsVertex (Endpoints.target copy) := by
    intro copy member
    obtain ⟨sources, targets⟩ := ended copy member
    rw [AdjacencyGraph.containsVertex_addVertices, AdjacencyGraph.containsVertex_addVertices,
      sources, targets]
    exact ⟨rfl, rfl⟩
  have edges : Fills codecs factories indent?
      (listing.edges.zipIdx.map fun entry => edgeOutline codecs identities entry.2 entry.1)
      ⟨blank.addVertices copies, table⟩ ⟨(blank.addVertices copies).addEdges edgeCopies, table⟩ :=
    fills_edges edgesRead contained
  rw [graphOutlines, List.mapIdx_eq_zipIdx_map]
  exact (data.append nodes).append edges

end GraphMarkup.Document
