import GraphMarkup.Proofs.Document.Copies
import GraphMarkup.Proofs.Document.Filling
import GraphMarkup.Sample.Roads

/-!
# Written graphs are read back

A graph that is written and read again is the same up to the spelling of its values:
its vertices and edges come back in their order, joined as before, and every attribute
agrees with what it was. This takes accessors that are independent fields, values that
their texts tell, ids that tell vertices apart, and factories that make of an id
whatever is no attribute. Only vertices that are told apart by a value which is left out in
writing, as a zero is whose default is the other zero, come back as one.
-/

namespace GraphMarkup.Document

open GraphMarkup.Attributes
open GraphMarkup.Decimal
open GraphMarkup.Graph
open GraphMarkup.Value

/-! ## What is asked of a graph -/

section

variable {V E A : Type}

/-- The attributes of vertices, edges and the graph are independent fields, and no two of one
type have the same name. -/
structure Codecs.Regular (codecs : Codecs V E A) : Prop where
  graphFields : codecs.graph.Fields
  graphNames : codecs.graph.DistinctNames
  vertexFields : codecs.vertex.Fields
  vertexNames : codecs.vertex.DistinctNames
  edgeFields : codecs.edge.Fields
  edgeNames : codecs.edge.DistinctNames

/-- All attributes in a graph can be read back from their texts. -/
structure Codecs.Represents (codecs : Codecs V E A) (listing : Listing V E A) : Prop where
  attributes : codecs.graph.Representable listing.attributes
  vertices : ∀ vertex ∈ listing.vertices, codecs.vertex.Representable vertex
  edges : ∀ edge ∈ listing.edges, codecs.edge.Representable edge

variable {codecs : Codecs V E A} [BEq V] [Endpoints E V]

/-- The ids of a graph tell its vertices apart, and the factories make of them what is no
attribute. -/
structure Restorable (remainders : Remainders codecs) (identities : Identities V E)
    (factories : Factories V E) (listing : Listing V E A) : Prop where
  /-- Equal vertices have one id. -/
  sameId : ∀ a b : V, a == b → identities.vertex a = identities.vertex b
  /-- Different vertices of the graph have different ids. -/
  distinctIds : ∀ a ∈ listing.vertices, ∀ b ∈ listing.vertices,
    identities.vertex a = identities.vertex b → a == b
  vertexMade : ∀ vertex ∈ listing.vertices,
    remainders.vertex.Same (factories.vertex (identities.vertex vertex)) vertex
  /-- An edge is made of its id between copies of the vertices at its ends. -/
  edgeMade : ∀ position edge, listing.edges[position]? = some edge →
    ∀ source ∈ listing.vertices, source == Endpoints.source edge →
      ∀ target ∈ listing.vertices, target == Endpoints.target edge →
        ∀ sourceCopy, remainders.vertex.Alike source sourceCopy →
          ∀ targetCopy, remainders.vertex.Alike target targetCopy →
            ∀ made, made = factories.edge sourceCopy targetCopy (identities.edge position edge) →
              remainders.edge.Same made edge ∧ Endpoints.source made == sourceCopy ∧
                Endpoints.target made == targetCopy
  /-- Attributes do not change the ends of an edge. -/
  endsKept : ∀ property ∈ codecs.edge.properties, ∀ value edge,
    Endpoints.source (property.set value edge) == Endpoints.source edge ∧
      Endpoints.target (property.set value edge) == Endpoints.target edge

end

/-! ## Copies that are read -/

section

variable {V E A : Type} [BEq V] [Endpoints E V] {codecs : Codecs V E A}
  {remainders : Remainders codecs} {identities : Identities V E} {factories : Factories V E}
  {listing : Listing V E A}

/-- Every vertex has a copy that is read back. -/
theorem Restorable.exists_vertexCopy
    (restorable : Restorable remainders identities factories listing) (regular : codecs.Regular)
    (represents : codecs.Represents listing) {vertex : V}
    (member : vertex ∈ listing.vertices) :
    ∃ copy, ReadsVertex codecs factories identities vertex copy ∧
      remainders.vertex.Alike vertex copy := by
  obtain ⟨copy, read, same, agree⟩ := Codec.readEntries_write regular.vertexFields
    regular.vertexNames remainders.vertex (represents.vertices vertex member)
    (factories.vertex (identities.vertex vertex))
  have equivalence := remainders.vertex.equivalence
  exact ⟨copy, read,
    equivalence.symm (equivalence.trans same (restorable.vertexMade vertex member)), agree⟩

/-- What edges are apart from their attributes, together with their ends. -/
def edgesWithEnds [EquivBEq V] (remainder : codecs.edge.Remainder)
    (kept : ∀ property ∈ codecs.edge.properties, ∀ value edge,
      Endpoints.source (property.set value edge) == Endpoints.source edge ∧
        Endpoints.target (property.set value edge) == Endpoints.target edge) :
    codecs.edge.Remainder where
  Same a b := remainder.Same a b ∧ Endpoints.source a == Endpoints.source b ∧
    Endpoints.target a == Endpoints.target b
  equivalence :=
    { refl := fun edge => ⟨remainder.equivalence.refl edge, BEq.refl _, BEq.refl _⟩
      symm := fun ⟨same, sources, targets⟩ =>
        ⟨remainder.equivalence.symm same, BEq.symm sources, BEq.symm targets⟩
      trans := fun ⟨same, sources, targets⟩ ⟨same', sources', targets'⟩ =>
        ⟨remainder.equivalence.trans same same', BEq.trans sources sources',
          BEq.trans targets targets'⟩ }
  set property member value edge :=
    ⟨remainder.set property member value edge, kept property member value edge⟩

/-- The ids of vertices of which no two are equal are different. -/
theorem Restorable.nodup_ids (restorable : Restorable remainders identities factories listing)
    (distinct : listing.vertices.Pairwise fun a b => (a == b) = false) :
    (listing.vertices.map identities.vertex).Nodup := by
  apply List.pairwise_map.mpr
  apply distinct.imp_of_mem
  intro a b inA inB different same
  rw [restorable.distinctIds a inA b inB same] at different
  cases different

/-- Copies of vertices of which no two are equal are not equal either, as long as copies have the
ids of the vertices. -/
theorem Restorable.pairwise_copies (restorable : Restorable remainders identities factories listing)
    (kept : ∀ vertex ∈ listing.vertices, ∀ copy, remainders.vertex.Alike vertex copy →
      identities.vertex vertex = identities.vertex copy)
    (distinct : listing.vertices.Pairwise fun a b => (a == b) = false) {copies : List V}
    (alike : List.Forall₂ remainders.vertex.Alike listing.vertices copies) :
    copies.Pairwise fun a b => (a == b) = false := by
  apply pairwise_of_forall₂ alike distinct
  intro a inA b inB copyA copyB alikeA alikeB different
  rw [Bool.eq_false_iff]
  intro equal
  have ids := restorable.sameId copyA copyB equal
  rw [← kept a inA copyA alikeA, ← kept b inB copyB alikeB] at ids
  rw [restorable.distinctIds a inA b inB ids] at different
  cases different

/-- An end of an edge is a vertex with a copy that is known by its id and stands for it. -/
theorem Restorable.exists_endCopy (restorable : Restorable remainders identities factories listing)
    {original : PlainGraph V E} (sound : original.Sound)
    (vertices : original.vertices = listing.vertices) {copies : List V}
    (alike : List.Forall₂ remainders.vertex.Alike listing.vertices copies) {vertex : V}
    (present : (original.vertexId? vertex).isSome) :
    ∃ found ∈ listing.vertices, found == vertex ∧ ∃ copy, remainders.vertex.Alike found copy ∧
      ((listing.vertices.map identities.vertex).zip copies).reverse.lookup
        (identities.vertex found) = some copy ∧
      ∀ other, other == copy → StandsFor original copies vertex other := by
  obtain ⟨id, atId⟩ := Option.isSome_iff_exists.mp present
  obtain ⟨found, inside, equal⟩ := PlainGraph.getElem?_of_vertexId?_eq atId
  rw [vertices] at inside
  obtain ⟨less, rfl⟩ := List.getElem?_eq_some_iff.mp inside
  have length := alike.length_eq
  have copyLess : id.index < copies.length := length ▸ less
  refine ⟨_, List.getElem_mem less, equal, copies[id.index], alike.get less copyLess, ?_, ?_⟩
  · apply lookup_of_mem
    · rw [List.map_reverse, List.nodup_reverse, List.map_fst_zip (by simp [length])]
      exact restorable.nodup_ids (vertices ▸ sound.distinct)
    · rw [List.mem_reverse]
      apply List.mem_of_getElem? (i := id.index)
      simp [less, copyLess]
  · intro other same
    exact ⟨id, _, atId, List.getElem?_eq_getElem copyLess, same⟩

variable [EquivBEq V]

/-- Every edge has a copy that is read back between copies of the vertices at its ends. -/
theorem Restorable.exists_edgeCopy (restorable : Restorable remainders identities factories listing)
    (regular : codecs.Regular) (represents : codecs.Represents listing) {edge : E} {position : Nat}
    (found : listing.edges[position]? = some edge) {source target sourceCopy targetCopy : V}
    (sourceInside : source ∈ listing.vertices) (atSource : source == Endpoints.source edge)
    (targetInside : target ∈ listing.vertices) (atTarget : target == Endpoints.target edge)
    (sourceAlike : remainders.vertex.Alike source sourceCopy)
    (targetAlike : remainders.vertex.Alike target targetCopy) {table : VertexTable V}
    (sourceKnown : table.lookup (identities.vertex source) = some sourceCopy)
    (targetKnown : table.lookup (identities.vertex target) = some targetCopy) :
    ∃ copy, ReadsEdge codecs factories identities table (edge, position) copy ∧
      remainders.edge.Alike edge copy ∧ Endpoints.source copy == sourceCopy ∧
        Endpoints.target copy == targetCopy := by
  obtain ⟨copy, read, ⟨same, sources, targets⟩, agree⟩ :=
    Codec.readEntries_write regular.edgeFields regular.edgeNames
      (edgesWithEnds remainders.edge restorable.endsKept)
      (represents.edges edge (List.mem_of_getElem? found))
      (factories.edge sourceCopy targetCopy (identities.edge position edge))
  have equivalence := remainders.edge.equivalence
  obtain ⟨made, madeSource, madeTarget⟩ := restorable.edgeMade position edge found source
    sourceInside atSource target targetInside atTarget sourceCopy sourceAlike targetCopy
    targetAlike _ rfl
  rw [restorable.sameId _ _ atSource] at sourceKnown
  rw [restorable.sameId _ _ atTarget] at targetKnown
  exact ⟨copy, ⟨sourceCopy, targetCopy, sourceKnown, targetKnown, read⟩,
    ⟨equivalence.symm (equivalence.trans same made), agree⟩, BEq.trans sources madeSource,
    BEq.trans targets madeTarget⟩

/-- The edges have copies that are read back and end at copies of the vertices where they do. -/
theorem Restorable.exists_edgeCopies
    (restorable : Restorable remainders identities factories listing)
    (regular : codecs.Regular) (represents : codecs.Represents listing)
    {original : PlainGraph V E} (sound : original.Sound)
    (vertices : original.vertices = listing.vertices) (edges : original.edges = listing.edges)
    {copies : List V} (alike : List.Forall₂ remainders.vertex.Alike listing.vertices copies) :
    ∃ edgeCopies, List.Forall₂ (ReadsEdge codecs factories identities
          ((listing.vertices.map identities.vertex).zip copies).reverse)
        listing.edges.zipIdx edgeCopies ∧
      List.Forall₂ remainders.edge.Alike listing.edges edgeCopies ∧
        List.Forall₂ (EndsAmong original copies) listing.edges edgeCopies := by
  have each : ∀ entry ∈ listing.edges.zipIdx, ∃ copy,
      ReadsEdge codecs factories identities
          ((listing.vertices.map identities.vertex).zip copies).reverse entry copy ∧
        remainders.edge.Alike entry.1 copy ∧ EndsAmong original copies entry.1 copy := by
    rintro ⟨edge, position⟩ member
    have found := List.mem_zipIdx_iff_getElem?.mp member
    obtain ⟨sourcePresent, targetPresent⟩ :=
      sound.ended edge (edges ▸ List.mem_of_getElem? found)
    obtain ⟨source, sourceInside, atSource, sourceCopy, sourceAlike, sourceKnown, sourceStands⟩ :=
      restorable.exists_endCopy sound vertices alike sourcePresent
    obtain ⟨target, targetInside, atTarget, targetCopy, targetAlike, targetKnown, targetStands⟩ :=
      restorable.exists_endCopy sound vertices alike targetPresent
    obtain ⟨copy, read, edgeAlike, sources, targets⟩ :=
      restorable.exists_edgeCopy regular represents found sourceInside atSource targetInside
        atTarget sourceAlike targetAlike sourceKnown targetKnown
    exact ⟨copy, read, edgeAlike, sourceStands _ sources, targetStands _ targets⟩
  obtain ⟨edgeCopies, pairs⟩ := exists_forall₂ each
  exact ⟨edgeCopies, pairs.imp fun _ _ all => all.1,
    forall₂_of_zipIdx (pairs.imp fun _ _ all => all.2.1),
    forall₂_of_zipIdx (pairs.imp fun _ _ all => all.2.2)⟩

end

/-! ## Round trips -/

section

variable {V E A : Type} [BEq V] [Hashable V] [EquivBEq V] [LawfulHashable V] [Endpoints E V]
  {codecs : Codecs V E A} {remainders : Remainders codecs} {identities : Identities V E}
  {factories : Factories V E} {graph : AdjacencyGraph V E A}

/-- The children of the graph element of a written graph fill an empty graph with copies of its
vertices and edges. -/
theorem exists_fills_graphOutlines (consistent : graph.Consistent) (regular : codecs.Regular)
    (represents : codecs.Represents graph.listing)
    (restorable : Restorable remainders identities factories graph.listing)
    (indent? : Option Nat) (attributes : A) :
    ∃ (copies : List V) (edgeCopies : List E) (after : Filling (AdjacencyGraph V E A) V),
      List.Forall₂ (ReadsVertex codecs factories identities) graph.listing.vertices copies ∧
      Fills codecs factories indent? (graphOutlines codecs identities graph.listing)
        ⟨applyGraphDefaults codecs.graph
          (AdjacencyGraph.empty graph.directed graph.allowsParallelEdges attributes), []⟩ after ∧
      IsRebuilt remainders graph copies edgeCopies after.graph := by
  obtain ⟨graphAttributes, graphRead, -, graphAgree⟩ := Codec.readEntries_write
    regular.graphFields regular.graphNames (Codec.Remainder.trivial codecs.graph)
    represents.attributes attributes
  obtain ⟨copies, vertexCopies⟩ := exists_forall₂ fun _ member =>
    restorable.exists_vertexCopy regular represents member
  have reads := vertexCopies.imp fun _ _ both => both.1
  have alike := vertexCopies.imp fun _ _ both => both.2
  obtain ⟨edgeCopies, edgesRead, edgesAlike, ends⟩ := restorable.exists_edgeCopies regular
    represents consistent.sound rfl rfl alike
  have ended : ∀ copy ∈ edgeCopies, copies.any (· == Endpoints.source copy) ∧
      copies.any (· == Endpoints.target copy) := by
    intro copy member
    obtain ⟨edge, -, sources, targets⟩ := exists_of_mem_partner ends member
    exact ⟨sources.any, targets.any⟩
  have blank : (AdjacencyGraph.empty graph.directed graph.allowsParallelEdges graphAttributes :
      AdjacencyGraph V E A).Holds ⟨graph.directed, graph.allowsParallelEdges, [], []⟩
        graphAttributes :=
    .empty _ _ _
  have holds := (blank.addVertices copies).addEdges edgeCopies
  rw [← holds.attributes_eq] at graphAgree
  exact ⟨copies, edgeCopies, _, reads, fills_graphOutlines graphRead reads edgesRead ended, alike,
    edgesAlike, ends, holds.consistent, holds.plain_eq, graphAgree⟩

/-- A graph that operations have made is written, and reading it into an empty graph of its kind
succeeds: copies of its vertices and edges are added one after the other. What comes back is a
copy of the graph exactly if no two vertices are read back as equal ones. -/
theorem read_document_isCopy_iff {type : GraphType V E A} (compiled : type.compile = .ok codecs)
    (reachable : graph.Reachable) (regular : codecs.Regular)
    (represents : codecs.Represents graph.listing)
    (restorable : Restorable remainders identities factories graph.listing)
    (settings : WriterSettings) (attributes : A) :
    ∃ document copies edgeCopies copy,
      Document.document type settings (Hooks.none V E A) identities graph.listing =
          .ok document ∧
        read type factories document
            (AdjacencyGraph.empty graph.directed graph.allowsParallelEdges attributes) =
          (.ok (), copy) ∧
        List.Forall₂ (ReadsVertex codecs factories identities) graph.listing.vertices copies ∧
        IsRebuilt remainders graph copies edgeCopies copy ∧
        (IsCopy remainders graph copy ↔ copies.Pairwise fun a b => (a == b) = false) := by
  obtain ⟨copies, edgeCopies, after, reads, fills, rebuilt⟩ :=
    exists_fills_graphOutlines reachable.consistent regular represents restorable
      settings.indent? attributes
  refine ⟨_, copies, edgeCopies, after.graph,
    document_eq codecs settings identities graph.listing compiled, ?_, reads, rebuilt,
    rebuilt.isCopy_iff reachable.consistent⟩
  rw [read, compiled]
  exact readTrace_document settings identities graph.listing fills

end

section

open GraphMarkup.Sample

/-- The codecs of networks of roads. -/
def roadCodecs : Codecs Town Road Network where
  graph :=
    ⟨"Network",
      [⟨"Label", .scalar .string, Network.label,
          fun label network => { network with label := label }, none⟩,
        ⟨"Revision", .scalar .long, Network.revision,
          fun revision network => { network with revision := revision }, some (1 : Int64)⟩]⟩
  vertex :=
    ⟨"Town",
      [⟨"Size", .scalar .int, Town.size, fun size town => { town with size := size },
          some (0 : Int32)⟩,
        ⟨"Tags", .nullable .string, Town.tags, fun tags town => { town with tags := tags },
          none⟩,
        ⟨"name", .scalar .string, Town.name, fun name town => { town with name := name },
          none⟩]⟩
  edge :=
    ⟨"Road",
      [⟨"Length", .scalar .double, Road.length,
          fun length road => { road with length := length }, some unitLength⟩,
        ⟨"Lanes", .list .int, Road.lanes, fun lanes road => { road with lanes := lanes }, none⟩,
        ⟨"Toll", .scalar .boolean, Road.toll, fun toll road => { road with toll := toll },
          some false⟩]⟩

theorem compile_roadGraphType : roadGraphType.compile = .ok roadCodecs := by
  unfold roadGraphType Road.declaration roadCodecs
  generalize unitLength = length
  rfl

/-- Every attribute of the network is a field of its own. -/
theorem regular_roadCodecs : roadCodecs.Regular where
  graphFields := by
    constructor
    · simp [roadCodecs]
    · simp [roadCodecs]
  graphNames := by
    simp [Codec.DistinctNames, roadCodecs]
  vertexFields := by
    constructor
    · simp [roadCodecs]
    · simp [roadCodecs]
  vertexNames := by
    simp [Codec.DistinctNames, roadCodecs]
  edgeFields := by
    constructor
    · simp [roadCodecs]
    · simp [roadCodecs]
  edgeNames := by
    simp [Codec.DistinctNames, roadCodecs]

/-- Towns are nothing but their attributes, and roads have an id besides. -/
def roadRemainders : Remainders roadCodecs where
  vertex := .trivial _
  edge :=
    { Same := fun a b => a.id = b.id
      equivalence := ⟨fun _ => rfl, fun same => same.symm, fun first second => first.trans second⟩
      set := by simp [roadCodecs] }

/-- A town whose size is the default. -/
def firstTown : Town := { name := "a & b", tags := some ["x", "<y>"] }

/-- A town without tags. -/
def secondTown : Town := { name := "null", size := 7 }

/-- A road with some lanes. -/
def townRoad : Road :=
  { id := "r", source := secondTown, target := firstTown, length := unitLength, lanes := [1, -2] }

/-- A network of two towns and a road, which is built from the road and a town. -/
def townGraph : AdjacencyGraph Town Road Network :=
  (runOperations AdjacencyGraph.perform
    (AdjacencyGraph.empty false false { label := " ]]> ", revision := 1 })
    [.addVerticesAndEdge townRoad, .addVertex firstTown, .addEdge townRoad]).2

theorem plain_townGraph :
    townGraph.plain = ⟨false, false, [secondTown, firstTown], [townRoad]⟩ := by
  have empty : (AdjacencyGraph.empty false false { label := " ]]> ", revision := 1 } :
      AdjacencyGraph Town Road Network).Consistent := .empty _ _ _
  have run := (empty.runOperations
    [.addVerticesAndEdge townRoad, .addVertex firstTown, .addEdge townRoad]).2.1
  rw [townGraph, run]
  decide +kernel

theorem vertices_townGraph : townGraph.listing.vertices = [secondTown, firstTown] :=
  congrArg PlainGraph.vertices plain_townGraph

theorem edges_townGraph : townGraph.listing.edges = [townRoad] :=
  congrArg PlainGraph.edges plain_townGraph

theorem represents_townGraph : roadCodecs.Represents townGraph.listing where
  attributes := by
    simp [Codec.Representable, roadCodecs, Value.Representable]
  vertices := by
    rw [vertices_townGraph]
    have tags : Value.ListRepresentable .string ["x", "<y>"] := by
      constructor
      · decide
      · decide
    simp [Codec.Representable, roadCodecs, Value.Representable, secondTown, firstTown, tags]
  edges := by
    rw [edges_townGraph]
    simp [Codec.Representable, roadCodecs, Value.Representable, Value.ListRepresentable]

theorem restorable_townGraph :
    Restorable roadRemainders roadIdentities roadFactories townGraph.listing where
  sameId := by
    intro a b equal
    rw [eq_of_beq equal]
  distinctIds := by
    rw [vertices_townGraph]
    decide
  vertexMade := fun _ _ => .intro
  edgeMade := by
    rw [edges_townGraph]
    intro position edge found source _ _ target _ _ sourceCopy _ targetCopy _ made rfl
    obtain ⟨rfl, rfl⟩ : position = 0 ∧ townRoad = edge := by
      simpa [List.getElem?_singleton] using found
    exact ⟨rfl, BEq.refl _, BEq.refl _⟩
  endsKept := by
    simp [roadCodecs, Endpoints.source, Endpoints.target]

/-- A town that has the name of another one has its id. -/
theorem sameId_of_alike_town {town copy : Town} (alike : roadRemainders.vertex.Alike town copy) :
    roadIdentities.vertex town = roadIdentities.vertex copy := by
  rcases alike.2 _ (List.mem_of_getElem? (i := 2) rfl) with equal | same
  · exact eq_of_beq equal
  · exact same

/-- The network is the same when it is read back. -/
theorem isCopy_townGraph :
    roadGraphType.compile = .ok roadCodecs ∧ townGraph.Reachable ∧ roadCodecs.Regular ∧
    roadCodecs.Represents townGraph.listing ∧
    Restorable roadRemainders roadIdentities roadFactories townGraph.listing ∧
    ∃ document copy,
      Document.document roadGraphType {} (Hooks.none Town Road Network) roadIdentities
          townGraph.listing = .ok document ∧
        read roadGraphType roadFactories document
            (AdjacencyGraph.empty townGraph.directed townGraph.allowsParallelEdges {}) =
          (.ok (), copy) ∧
        IsCopy roadRemainders townGraph copy := by
  have reachable : townGraph.Reachable := ⟨_, _, _, _, rfl⟩
  refine ⟨compile_roadGraphType, reachable, regular_roadCodecs, represents_townGraph,
    restorable_townGraph, ?_⟩
  obtain ⟨document, copies, edgeCopies, copy, writes, reads, -, rebuilt, isCopy_iff⟩ :=
    read_document_isCopy_iff compile_roadGraphType reachable regular_roadCodecs
      represents_townGraph restorable_townGraph {} {}
  refine ⟨document, copy, writes, reads, isCopy_iff.mpr ?_⟩
  exact restorable_townGraph.pairwise_copies (fun _ _ _ => sameId_of_alike_town)
    reachable.consistent.sound.distinct rebuilt.vertices

end

/-! ## Vertices that come back as one -/

/-- A mark at a height, which is zero unless something else is said. -/
structure Mark where
  height : Binary .double
deriving DecidableEq

namespace Mark

instance : Hashable Mark where
  hash _ := 0

/-- What a mark says about its members. -/
def declaration : Declaration Mark where
  typeName := "Mark"
  members :=
    [{ name := "Height"
       type := .ofKind (.scalar .double)
       get? := some height
       set? := some fun height mark => { mark with height := height }
       marking := .marked
       default? := some ⟨.ofKind (.scalar .double), (.zero : Binary .double)⟩ }]

/-- Marks and what joins them. -/
def graphType : GraphType Mark (Edge Mark) Unit where
  vertex := declaration
  edge := .none _ "Edge"
  graph := .none _ "Unit"

/-- The codecs of graphs of marks. -/
def codecs : Codecs Mark (Edge Mark) Unit where
  graph := ⟨"Unit", []⟩
  vertex :=
    ⟨"Mark",
      [⟨"Height", .scalar .double, height, fun height mark => { mark with height := height },
        some (.zero : Binary .double)⟩]⟩
  edge := ⟨"Edge", []⟩

/-- Marks are known by the texts of their heights. -/
def identities : Identities Mark (Edge Mark) where
  vertex mark := ValueKind.write (.scalar .double) mark.height
  edge position _ := toString position

/-- A mark is made without a height. -/
def factories : Factories Mark (Edge Mark) where
  vertex _ := ⟨.nan⟩
  edge source target _ := ⟨source, target⟩

/-- Marks are nothing but their heights. -/
def remainders : Remainders codecs where
  vertex := .trivial _
  edge := .trivial _

/-- A mark at height zero. -/
def level : Mark := ⟨.zero⟩

/-- A mark at height minus zero. -/
def minusLevel : Mark := ⟨.ofCode true 0⟩

/-- The two marks and what joins them. -/
def zeros : AdjacencyGraph Mark (Edge Mark) Unit :=
  (runOperations AdjacencyGraph.perform (AdjacencyGraph.empty true false ())
    [.addVerticesAndEdge ⟨level, minusLevel⟩]).2

theorem plain_zeros : zeros.plain = ⟨true, false, [level, minusLevel], [⟨level, minusLevel⟩]⟩ := by
  have empty : (AdjacencyGraph.empty true false () :
      AdjacencyGraph Mark (Edge Mark) Unit).Consistent := .empty _ _ _
  rw [zeros, (empty.runOperations [.addVerticesAndEdge ⟨level, minusLevel⟩]).2.1]
  decide +kernel

theorem vertices_zeros : zeros.listing.vertices = [level, minusLevel] :=
  congrArg PlainGraph.vertices plain_zeros

theorem edges_zeros : zeros.listing.edges = [⟨level, minusLevel⟩] :=
  congrArg PlainGraph.edges plain_zeros

theorem regular_codecs : codecs.Regular where
  graphFields := by
    constructor
    · simp [codecs]
    · simp [codecs]
  graphNames := by
    simp [Codec.DistinctNames, codecs]
  vertexFields := by
    constructor
    · simp [codecs]
    · simp [codecs]
  vertexNames := by
    simp [Codec.DistinctNames, codecs]
  edgeFields := by
    constructor
    · simp [codecs]
    · simp [codecs]
  edgeNames := by
    simp [Codec.DistinctNames, codecs]

theorem represents_zeros : codecs.Represents zeros.listing where
  attributes := by
    simp [Codec.Representable, codecs]
  vertices := by
    simp [Codec.Representable, codecs, Value.Representable]
  edges := by
    simp [Codec.Representable, codecs]

theorem restorable_zeros : Restorable remainders identities factories zeros.listing where
  sameId := by
    intro a b equal
    rw [eq_of_beq equal]
  distinctIds := by
    rw [vertices_zeros]
    decide
  vertexMade := fun _ _ => .intro
  edgeMade := by
    rintro position edge - source - - target - - sourceCopy - targetCopy - made rfl
    exact ⟨.intro, BEq.refl _, BEq.refl _⟩
  endsKept := by
    simp [codecs]

/-- A mark at a zero is read back at the zero that is the default. -/
theorem eq_level_of_readsVertex {mark copy : Mark} (zero : mark = level ∨ mark = minusLevel)
    (reads : ReadsVertex codecs factories identities mark copy) : copy = level := by
  have restored : ReadsVertex codecs factories identities mark level := by
    rw [ReadsVertex]
    rcases zero with rfl | rfl
    · decide
    · decide
  exact Except.ok.inj (reads.symm.trans restored)

/-- Nothing but a mark at zero stands for one of the marks. -/
theorem eq_level_of_standsFor {mark copy : Mark}
    (stands : StandsFor zeros.plain [level, level] mark copy) : copy = level := by
  obtain ⟨found, inside, equal⟩ := List.any_eq_true.mp stands.any
  rw [← eq_of_beq equal]
  exact List.eq_of_mem_replicate (n := 2) inside

/-- A mark at minus zero, which is left out, and a mark at zero, which is the default, come back as
one mark that is joined to itself. -/
theorem not_isCopy_zeros :
    graphType.compile = .ok codecs ∧ zeros.Reachable ∧ codecs.Regular ∧
    codecs.Represents zeros.listing ∧
    Restorable remainders identities factories zeros.listing ∧
    zeros.listing.vertices = [level, minusLevel] ∧
    zeros.listing.edges = [⟨level, minusLevel⟩] ∧
    ∃ document copy,
      Document.document graphType {} (Hooks.none Mark (Edge Mark) Unit) identities zeros.listing =
          .ok document ∧
        read graphType factories document
            (AdjacencyGraph.empty zeros.directed zeros.allowsParallelEdges ()) =
          (.ok (), copy) ∧
        copy.listing.vertices = [level] ∧ copy.listing.edges = [⟨level, level⟩] ∧
        ¬ IsCopy remainders zeros copy := by
  have reachable : zeros.Reachable := ⟨_, _, _, _, rfl⟩
  have compiled : graphType.compile = .ok codecs := rfl
  obtain ⟨copies, edgeCopies, after, reads, fills, rebuilt⟩ :=
    exists_fills_graphOutlines reachable.consistent regular_codecs represents_zeros
      restorable_zeros (some 2) ()
  rw [vertices_zeros] at reads
  have vertices : copies = [level, level] := by
    cases reads with
    | cons first others =>
      cases others with
      | cons second none =>
        cases none
        rw [eq_level_of_readsVertex (Or.inl rfl) first, eq_level_of_readsVertex (Or.inr rfl) second]
  have edges : edgeCopies = [⟨level, level⟩] := by
    have ends := rebuilt.ends
    rw [edges_zeros, vertices] at ends
    cases ends with
    | @cons _ copy _ _ first others =>
      cases others
      obtain ⟨source, target⟩ := copy
      cases eq_level_of_standsFor first.1
      cases eq_level_of_standsFor first.2
      rfl
  have plain : after.graph.plain = ⟨true, false, [level], [⟨level, level⟩]⟩ := by
    rw [rebuilt.plain, vertices, edges]
    decide +kernel
  refine ⟨compiled, reachable, regular_codecs, represents_zeros, restorable_zeros, vertices_zeros,
    edges_zeros, _, after.graph, document_eq codecs {} identities zeros.listing compiled, ?_,
    congrArg PlainGraph.vertices plain, congrArg PlainGraph.edges plain, ?_⟩
  · rw [read, compiled]
    exact readTrace_document {} identities zeros.listing fills
  · intro copy
    have distinct := rebuilt.pairwise_of_isCopy copy
    rw [vertices] at distinct
    revert distinct
    decide

end Mark

end GraphMarkup.Document
