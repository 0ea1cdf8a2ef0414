import GraphMarkup.Graph.Identity
import GraphMarkup.Proofs.Graph.Refinement

/-!
# Numbered vertices

The positions of vertices are collected in one pass over the vertices, which keeps the first
position of equal ones. So a vertex goes by the first position at which a vertex equal to it is
listed, and vertices that are listed have one id exactly if they are equal. In a graph that
operations build no two vertices are equal and edges end in vertices, so the ids of the vertices
are their positions, and every end of an edge goes by one of them.
-/

namespace GraphMarkup.Graph

/-! ## First positions -/

section

variable {V : Type} [BEq V] {vertices : List V} {vertex : V}

/-- At this position a vertex equal to the given one is listed, and at no earlier one. -/
structure IsFirstAt (vertices : List V) (vertex : V) (position : Nat) : Prop where
  stands : ∃ listed, vertices[position]? = some listed ∧ listed == vertex
  first : ∀ earlier listed, earlier < position → vertices[earlier]? = some listed →
    (listed == vertex) = false

theorem findIdx?_eq_some_iff_isFirstAt {position : Nat} :
    vertices.findIdx? (· == vertex) = some position ↔ IsFirstAt vertices vertex position := by
  rw [List.findIdx?_eq_some_iff_getElem]
  constructor
  · rintro ⟨inside, equal, earlier⟩
    refine ⟨⟨_, List.getElem?_eq_getElem inside, equal⟩, fun position listed less found => ?_⟩
    obtain ⟨_, rfl⟩ := List.getElem?_eq_some_iff.mp found
    simpa using earlier position less
  · rintro ⟨⟨listed, found, equal⟩, earlier⟩
    obtain ⟨inside, rfl⟩ := List.getElem?_eq_some_iff.mp found
    refine ⟨inside, equal, fun position less => ?_⟩
    simpa using earlier position _ less (List.getElem?_eq_getElem (Nat.lt_trans less inside))

/-- A vertex that equals a listed one is first listed somewhere. -/
theorem exists_isFirstAt (listed : vertices.any (· == vertex)) :
    ∃ position, IsFirstAt vertices vertex position := by
  rw [← List.findIdx?_isSome] at listed
  obtain ⟨position, found⟩ := Option.isSome_iff_exists.mp listed
  exact ⟨position, findIdx?_eq_some_iff_isFirstAt.mp found⟩

theorem IsFirstAt.lt_length {position : Nat} (first : IsFirstAt vertices vertex position) :
    position < vertices.length := by
  obtain ⟨_, found, -⟩ := first.stands
  exact (List.getElem?_eq_some_iff.mp found).1

/-- A vertex has no two first positions. -/
theorem IsFirstAt.unique {a b : Nat} (first : IsFirstAt vertices vertex a)
    (other : IsFirstAt vertices vertex b) : a = b :=
  Option.some_inj.mp ((findIdx?_eq_some_iff_isFirstAt.mpr first).symm.trans
    (findIdx?_eq_some_iff_isFirstAt.mpr other))

/-- Equal vertices are first listed at the same position. -/
theorem IsFirstAt.congr [EquivBEq V] {other : V} {position : Nat}
    (first : IsFirstAt vertices vertex position) (equal : vertex == other) :
    IsFirstAt vertices other position := by
  obtain ⟨listed, found, equalListed⟩ := first.stands
  refine ⟨⟨listed, found, BEq.trans equalListed equal⟩, fun earlier other less stands => ?_⟩
  rw [← first.first earlier other less stands]
  exact (BEq.congr_right equal).symm

/-- Vertices are equal exactly if they are first listed at the same position. -/
theorem IsFirstAt.eq_iff_beq [EquivBEq V] {other : V} {a b : Nat}
    (first : IsFirstAt vertices vertex a) (otherFirst : IsFirstAt vertices other b) :
    a = b ↔ vertex == other := by
  constructor
  · rintro rfl
    obtain ⟨listed, found, equal⟩ := first.stands
    obtain ⟨listed', found', equal'⟩ := otherFirst.stands
    cases found.symm.trans found'
    exact BEq.trans (BEq.symm equal) equal'
  · intro equal
    exact (first.congr equal).unique otherFirst

/-- Where no two vertices are equal each is first listed where it stands. -/
theorem isFirstAt_of_distinct [ReflBEq V]
    (distinct : vertices.Pairwise fun earlier later => (earlier == later) = false) {position : Nat}
    (found : vertices[position]? = some vertex) : IsFirstAt vertices vertex position := by
  refine ⟨⟨vertex, found, BEq.refl vertex⟩, fun earlier listed less stands => ?_⟩
  obtain ⟨_, rfl⟩ := List.getElem?_eq_some_iff.mp found
  obtain ⟨_, rfl⟩ := List.getElem?_eq_some_iff.mp stands
  exact List.pairwise_iff_getElem.mp distinct earlier position _ _ less

end

/-! ## Positions as ids -/

section

variable {V : Type} [BEq V] {vertices : List V} {identity : V → String}

/-- Vertices go by the first positions at which they are listed. -/
structure NamesByPosition (vertices : List V) (identity : V → String) : Prop where
  /-- What equals a listed vertex goes by its first position. -/
  first : ∀ vertex, vertices.any (· == vertex) →
    ∃ position, IsFirstAt vertices vertex position ∧ identity vertex = toString position
  /-- Listed vertices have one id exactly if they are equal. -/
  same : ∀ a ∈ vertices, ∀ b ∈ vertices, identity a = identity b ↔ a == b
  /-- What is not listed has the empty id. -/
  absent : ∀ vertex, vertices.any (· == vertex) = false → identity vertex = ""

/-- Digits tell a number. -/
theorem eq_of_toString_eq {m n : Nat} (same : toString m = toString n) : m = n := by
  rw [Nat.toString_eq_repr, Nat.toString_eq_repr, Nat.repr_eq_ofList_toDigits,
    Nat.repr_eq_ofList_toDigits, String.ofList_inj] at same
  rw [← Nat.ofDigitChars_ten_toDigits (n := m), ← Nat.ofDigitChars_ten_toDigits (n := n), same]

/-- Positions differ, and so do the ids made of them. -/
theorem nodup_range_map_toString (count : Nat) :
    ((List.range count).map (toString : Nat → String)).Nodup :=
  List.pairwise_map.mpr (List.nodup_range.imp fun differ same => differ (eq_of_toString_eq same))

theorem NamesByPosition.eq_toString (names : NamesByPosition vertices identity) {vertex : V}
    {position : Nat} (isFirst : IsFirstAt vertices vertex position) :
    identity vertex = toString position := by
  obtain ⟨listed, found, equal⟩ := isFirst.stands
  obtain ⟨other, first, named⟩ := names.first vertex
    (List.any_eq_true.mpr ⟨listed, List.mem_of_getElem? found, equal⟩)
  rw [named, first.unique isFirst]

/-- Where no two vertices are equal, the ids of the vertices are all positions. -/
theorem NamesByPosition.map_eq_range [ReflBEq V] (names : NamesByPosition vertices identity)
    (distinct : vertices.Pairwise fun earlier later => (earlier == later) = false) :
    vertices.map identity = (List.range vertices.length).map toString := by
  apply List.ext_getElem?
  intro position
  rw [List.getElem?_map, List.getElem?_map]
  by_cases inside : position < vertices.length
  · have stands := List.getElem?_eq_getElem inside
    rw [stands, List.getElem?_range inside, Option.map_some, Option.map_some,
      names.eq_toString (isFirstAt_of_distinct distinct stands)]
  · rw [List.getElem?_eq_none (Nat.not_lt.mp inside),
      List.getElem?_eq_none (by rw [List.length_range]; exact Nat.not_lt.mp inside)]
    rfl

end

/-! ## The positions that are collected -/

section

variable {V E A : Type} [BEq V] [Hashable V] [EquivBEq V] [LawfulHashable V]

/-- A pass over vertices adds the first positions of those that have none yet. -/
theorem getElem?_foldl_insertIfNew (vertices : List V) (start : Nat)
    (positions : Std.HashMap V Nat) (vertex : V) :
    ((vertices.zipIdx start).foldl
        (fun positions entry => positions.insertIfNew entry.1 entry.2) positions)[vertex]? =
      positions[vertex]?.or ((vertices.findIdx? (· == vertex)).map (· + start)) := by
  induction vertices generalizing start positions with
  | nil => simp
  | cons first vertices ih =>
    rw [List.zipIdx_cons, List.foldl_cons, ih, Std.HashMap.getElem?_insertIfNew,
      List.findIdx?_cons]
    by_cases equal : first == vertex
    · have together : first ∈ positions ↔ positions[vertex]?.isSome := by
        rw [← Std.HashMap.getElem?_congr equal, Std.HashMap.mem_iff_isSome_getElem?]
      cases known : positions[vertex]? with
      | some position => simp [together, known]
      | none => simp [together, known, equal]
    · rw [if_neg (fun both => equal both.1), if_neg equal, Option.map_map]
      congr 2
      funext position
      change position + (start + 1) = position + 1 + start
      omega

/-- The position of a vertex is the first one at which it is listed. -/
theorem getElem?_vertexPositions (listing : Listing V E A) (vertex : V) :
    (vertexPositions listing)[vertex]? = listing.vertices.findIdx? (· == vertex) := by
  rw [vertexPositions, getElem?_foldl_insertIfNew, Std.HashMap.getElem?_empty]
  simp

theorem vertexIndexIdentity_eq (listing : Listing V E A) (vertex : V) :
    vertexIndexIdentity listing vertex =
      ((listing.vertices.findIdx? (· == vertex)).map toString).getD "" := by
  rw [vertexIndexIdentity, positionIdentity, getElem?_vertexPositions]
  cases listing.vertices.findIdx? (· == vertex) <;> rfl

/-- Vertices that are numbered go by their first positions. -/
theorem namesByPosition_vertexIndexIdentity (listing : Listing V E A) :
    NamesByPosition listing.vertices (vertexIndexIdentity listing) := by
  have first : ∀ vertex position, IsFirstAt listing.vertices vertex position →
      vertexIndexIdentity listing vertex = toString position := by
    intro vertex position isFirst
    rw [vertexIndexIdentity_eq, findIdx?_eq_some_iff_isFirstAt.mpr isFirst]
    rfl
  have listedIn : ∀ vertex ∈ listing.vertices, listing.vertices.any (· == vertex) :=
    fun vertex member => List.any_eq_true.mpr ⟨vertex, member, BEq.refl vertex⟩
  constructor
  · intro vertex listed
    obtain ⟨position, isFirst⟩ := exists_isFirstAt listed
    exact ⟨position, isFirst, first vertex position isFirst⟩
  · intro a memberA b memberB
    obtain ⟨positionA, firstA⟩ := exists_isFirstAt (listedIn a memberA)
    obtain ⟨positionB, firstB⟩ := exists_isFirstAt (listedIn b memberB)
    rw [first a positionA firstA, first b positionB firstB, ← firstA.eq_iff_beq firstB]
    exact ⟨eq_of_toString_eq, congrArg toString⟩
  · intro vertex absent
    have none : listing.vertices.findIdx? (· == vertex) = none :=
      List.findIdx?_eq_none_iff.mpr fun listed member => by
        simpa using List.any_eq_false.mp absent listed member
    rw [vertexIndexIdentity_eq, none]
    rfl

end

/-! ## Graphs that operations build -/

namespace AdjacencyGraph

section

variable {V E A : Type} [BEq V] [Hashable V] [EquivBEq V] [LawfulHashable V] [Endpoints E V]
  {graph : AdjacencyGraph V E A}

/-- The ids of the vertices of a graph are their positions. -/
theorem Consistent.map_vertexIndexIdentity (consistent : graph.Consistent) :
    graph.listing.vertices.map (vertexIndexIdentity graph.listing) =
      (List.range graph.listing.vertices.length).map toString :=
  (namesByPosition_vertexIndexIdentity graph.listing).map_eq_range consistent.sound.distinct

omit [EquivBEq V] [LawfulHashable V] in
/-- Both ends of an edge of a graph have positions. -/
theorem Consistent.exists_positions (consistent : graph.Consistent) {edge : E}
    (member : edge ∈ graph.listing.edges) :
    ∃ positions : Nat × Nat,
      IsFirstAt graph.listing.vertices (Endpoints.source edge) positions.1 ∧
        IsFirstAt graph.listing.vertices (Endpoints.target edge) positions.2 := by
  obtain ⟨hasSource, hasTarget⟩ := consistent.sound.ended edge member
  rw [PlainGraph.isSome_vertexId?] at hasSource hasTarget
  obtain ⟨source, atSource⟩ := exists_isFirstAt hasSource
  obtain ⟨target, atTarget⟩ := exists_isFirstAt hasTarget
  exact ⟨⟨source, target⟩, atSource, atTarget⟩

end

end AdjacencyGraph

end GraphMarkup.Graph
