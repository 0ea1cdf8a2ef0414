import GraphMarkup.Document.Codecs
import GraphMarkup.Proofs.Attributes.Fields
import GraphMarkup.Proofs.Graph.Extension

/-!
# Copies of graphs

A copy of a graph has copies of its vertices and edges in their order, joined as these are.
Adding copies of the vertices and then of the edges one after the other makes a copy of the
graph exactly if no two copies of vertices are equal: of equal vertices only the first is
taken.
-/

namespace GraphMarkup.Document

open GraphMarkup.Attributes
open GraphMarkup.Graph

/-! ## Ends of edges -/

section

variable {V E : Type} [BEq V]

/-- A vertex is equal to the one that a list has at the position of another vertex in a graph. -/
def StandsFor (original : PlainGraph V E) (copies : List V) (vertex copy : V) : Prop :=
  ∃ id found, original.vertexId? vertex = some id ∧ copies[id.index]? = some found ∧ copy == found

variable {original copied : PlainGraph V E} {copies : List V}

theorem StandsFor.isSome {vertex copy : V} (stands : StandsFor original copies vertex copy) :
    (original.vertexId? vertex).isSome := by
  obtain ⟨id, found, position, -⟩ := stands
  rw [position]
  rfl

/-- What stands for a vertex is among the copies. -/
theorem StandsFor.any [EquivBEq V] {vertex copy : V}
    (stands : StandsFor original copies vertex copy) : copies.any (· == copy) := by
  obtain ⟨id, found, -, inside, equal⟩ := stands
  exact List.any_eq_true.mpr ⟨found, List.mem_of_getElem? inside, BEq.symm equal⟩

variable [Endpoints E V]

/-- What stands for a vertex has its position where no two copies are equal. -/
theorem StandsFor.vertexId?_eq [EquivBEq V] (sound : copied.Sound)
    (vertices : copied.vertices = copies) {vertex copy : V}
    (stands : StandsFor original copies vertex copy) :
    copied.vertexId? copy = original.vertexId? vertex := by
  obtain ⟨id, found, position, inside, equal⟩ := stands
  rw [position, PlainGraph.vertexId?_congr equal]
  rw [← vertices] at inside
  exact sound.vertexId?_of_getElem? inside

/-- The ends of one edge stand for the ends of another. -/
def EndsAmong (original : PlainGraph V E) (copies : List V) (edge copy : E) : Prop :=
  StandsFor original copies (Endpoints.source edge) (Endpoints.source copy) ∧
    StandsFor original copies (Endpoints.target edge) (Endpoints.target copy)

theorem EndsAmong.endsAlike [EquivBEq V] (sound : copied.Sound)
    (vertices : copied.vertices = copies) {edge copy : E}
    (ends : EndsAmong original copies edge copy) : original.EndsAlike copied edge copy :=
  ⟨ends.1.vertexId?_eq sound vertices, ends.2.vertexId?_eq sound vertices⟩

/-- Copies of edges are parallel only where the edges are, if no two copies of vertices are
equal. -/
theorem pairwise_joins_of_endsAmong [EquivBEq V] (sound : original.Sound)
    (copiedSound : copied.Sound) (vertices : copied.vertices = copies)
    (directed : copied.directed = original.directed)
    (single : original.allowsParallelEdges = false) {edgeCopies : List E}
    (ends : List.Forall₂ (EndsAmong original copies) original.edges edgeCopies) :
    edgeCopies.Pairwise fun earlier later =>
      copied.joins (Endpoints.source later) (Endpoints.target later) earlier = false := by
  apply pairwise_of_forall₂ ends (sound.simple single)
  intro earlier _ later inside earlierCopy laterCopy first second apart
  obtain ⟨sources, targets⟩ := sound.ended later inside
  rw [(first.endsAlike copiedSound vertices).joins_eq directed
    (second.endsAlike copiedSound vertices) sources targets]
  exact apart

end

/-! ## Graphs made of copies -/

section

variable {V E A : Type}

/-- What vertices and edges are apart from their attributes. -/
structure Remainders (codecs : Codecs V E A) where
  vertex : codecs.vertex.Remainder
  edge : codecs.edge.Remainder

variable {codecs : Codecs V E A} [BEq V] [Hashable V] [Endpoints E V]

/-- A graph with copies of the vertices and edges of another one, in the same order and joined in
the same way. -/
structure IsCopy (remainders : Remainders codecs) (original copy : AdjacencyGraph V E A) :
    Prop where
  directed : copy.directed = original.directed
  allowsParallelEdges : copy.allowsParallelEdges = original.allowsParallelEdges
  vertices : List.Forall₂ remainders.vertex.Alike original.listing.vertices copy.listing.vertices
  edges : List.Forall₂ remainders.edge.Alike original.listing.edges copy.listing.edges
  /-- The ends of the edges are at the same positions. -/
  ends : List.Forall₂ (PlainGraph.EndsAlike original.plain copy.plain) original.listing.edges
    copy.listing.edges
  attributes : codecs.graph.Agree original.attributes copy.attributes

/-- A graph of the same kind to which copies of all vertices and edges of another one were added,
one after the other. -/
structure IsRebuilt (remainders : Remainders codecs) (original : AdjacencyGraph V E A)
    (copies : List V) (edgeCopies : List E) (rebuilt : AdjacencyGraph V E A) : Prop where
  vertices : List.Forall₂ remainders.vertex.Alike original.listing.vertices copies
  edges : List.Forall₂ remainders.edge.Alike original.listing.edges edgeCopies
  /-- The copies of edges end at the copies of the vertices where the edges end. -/
  ends : List.Forall₂ (EndsAmong original.plain copies) original.listing.edges edgeCopies
  consistent : rebuilt.Consistent
  plain : rebuilt.plain =
    (PlainGraph.addVertices ⟨original.directed, original.allowsParallelEdges, [], []⟩
      copies).addEdges edgeCopies
  attributes : codecs.graph.Agree original.attributes rebuilt.attributes

namespace IsRebuilt

variable {remainders : Remainders codecs} {original rebuilt : AdjacencyGraph V E A}
  {copies : List V} {edgeCopies : List E}

/-- Where no two copies of vertices are equal all copies are taken. -/
theorem plain_eq [EquivBEq V]
    (made : IsRebuilt remainders original copies edgeCopies rebuilt)
    (consistent : original.Consistent)
    (distinct : copies.Pairwise fun a b => (a == b) = false) :
    rebuilt.plain = ⟨original.directed, original.allowsParallelEdges, copies, edgeCopies⟩ := by
  have sound : (⟨original.directed, original.allowsParallelEdges, copies, []⟩ :
      PlainGraph V E).Sound :=
    ⟨distinct, List.forall_mem_nil _, fun _ => .nil⟩
  rw [made.plain, PlainGraph.addVertices_of_distinct distinct, PlainGraph.withVertices,
    List.nil_append, PlainGraph.addEdges_of_accepted]
  · rfl
  · intro copy member
    obtain ⟨edge, inside, ends⟩ := exists_of_mem_partner made.ends member
    have alike := ends.endsAlike sound rfl
    rw [alike.1, alike.2]
    exact consistent.sound.ended edge inside
  · intro single
    exact pairwise_joins_of_endsAmong consistent.sound sound rfl rfl single made.ends

/-- Where no two copies of vertices are equal the graph is a copy. -/
theorem isCopy [EquivBEq V] (made : IsRebuilt remainders original copies edgeCopies rebuilt)
    (consistent : original.Consistent)
    (distinct : copies.Pairwise fun a b => (a == b) = false) :
    IsCopy remainders original rebuilt := by
  have plain := made.plain_eq consistent distinct
  have vertices : rebuilt.listing.vertices = copies := congrArg PlainGraph.vertices plain
  have edges : rebuilt.listing.edges = edgeCopies := congrArg PlainGraph.edges plain
  exact
    { directed := congrArg PlainGraph.directed plain
      allowsParallelEdges := congrArg PlainGraph.allowsParallelEdges plain
      vertices := vertices.symm ▸ made.vertices
      edges := edges.symm ▸ made.edges
      ends := by
        rw [edges]
        exact made.ends.imp fun _ _ ends => ends.endsAlike made.consistent.sound vertices
      attributes := made.attributes }

/-- A graph without one of the copies is too short for a copy. -/
theorem pairwise_of_isCopy (made : IsRebuilt remainders original copies edgeCopies rebuilt)
    (copy : IsCopy remainders original rebuilt) :
    copies.Pairwise fun a b => (a == b) = false := by
  have taken : rebuilt.plain.vertices.Sublist copies := by
    rw [made.plain, PlainGraph.vertices_addEdges]
    exact PlainGraph.sublist_addVertices _ copies
  have all : rebuilt.plain.vertices.length = copies.length :=
    copy.vertices.length_eq.symm.trans made.vertices.length_eq
  rw [← taken.eq_of_length all]
  exact made.consistent.sound.distinct

/-- The graph is a copy exactly if no two copies of vertices are equal. -/
theorem isCopy_iff [EquivBEq V] (made : IsRebuilt remainders original copies edgeCopies rebuilt)
    (consistent : original.Consistent) :
    IsCopy remainders original rebuilt ↔ copies.Pairwise fun a b => (a == b) = false :=
  ⟨made.pairwise_of_isCopy, made.isCopy consistent⟩

end IsRebuilt

end

end GraphMarkup.Document
