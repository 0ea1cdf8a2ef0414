import GraphMarkup.Proofs.Document.RoundTrip
import GraphMarkup.Proofs.Document.WrittenValidity
import GraphMarkup.Proofs.Graph.Numbering
import GraphMarkup.Proofs.Markup.Tree

/-!
# Names in written documents

A written document has a node element for every vertex and an edge element for every edge, in the
order of the listing. Nodes have the ids of their vertices, and edges refer to the ids of the
vertices that they end at. Where vertices are numbered, every reference in the document of a graph
that operations build is to a node, and the ids of the nodes are their positions.
-/

namespace GraphMarkup.Markup

open GraphMarkup.Text

/-! ## The elements of a document -/

mutual

/-- The elements in a node, in the order of the document. -/
def Node.elements : Node → List Element
  | .element head children => head :: Forest.elements children
  | .leaf _ => []

/-- The elements in a forest, in the order of the document. -/
def Forest.elements : List Node → List Element
  | [] => []
  | node :: nodes => node.elements ++ Forest.elements nodes

end

/-- The elements with a name, in the order of the document. -/
def elementsNamed (name : String) (nodes : List Node) : List Element :=
  (Forest.elements nodes).filter (·.name = name)

theorem Forest.elements_append (front back : List Node) :
    Forest.elements (front ++ back) = Forest.elements front ++ Forest.elements back := by
  induction front with
  | nil => rfl
  | cons node front ih => rw [List.cons_append, elements, ih, elements, List.append_assoc]

theorem Forest.elements_textNodes (text : String) : Forest.elements (textNodes text) = [] := by
  rw [textNodes]
  split <;> rfl

theorem Forest.elements_breakNodes (indent? : Option Nat) (depth : Nat) :
    Forest.elements (breakNodes indent? depth) = [] :=
  elements_textNodes _

mutual

/-- Where an outline was written its headings are the elements. -/
theorem Outline.elements_node (resolution : Resolution) (indent? : Option Nat) :
    (outline : Outline) → (depth : Nat) →
    (outline.node resolution indent? depth).elements =
      outline.headings.map (Heading.element resolution)
  | .value heading text, depth => by
    rw [Outline.node, Node.elements, Forest.elements_textNodes]
    rfl
  | .branch heading children, depth => by
    rw [Outline.node, Node.elements, Forest.elements_append, Forest.elements_breakNodes,
      List.append_nil, Outlines.elements_nodes resolution indent? children (depth + 1)]
    rfl

/-- Where outlines were written their headings are the elements. -/
theorem Outlines.elements_nodes (resolution : Resolution) (indent? : Option Nat) :
    (outlines : List Outline) → (depth : Nat) →
    Forest.elements (Outlines.nodes resolution indent? depth outlines) =
      (Outlines.headings outlines).map (Heading.element resolution)
  | [], _ => rfl
  | outline :: outlines, depth => by
    rw [Outlines.nodes, Forest.elements_append, Forest.elements_breakNodes, List.nil_append,
      Forest.elements, outline.elements_node resolution indent? depth,
      Outlines.elements_nodes resolution indent? outlines depth, Outlines.headings,
      List.map_append]

end

/-- The elements of a document are its root and those of its outlines. -/
theorem elements_documentNodes (declaration : Bool) (indent? : Option Nat) (name uri : String)
    (children : List Outline) :
    Forest.elements (documentNodes declaration indent? name uri children) =
      documentRoot name uri ::
        (Outlines.headings children).map (Heading.element (.bound (encodeUtf8 (escape uri)))) := by
  have front : Forest.elements
      (if declaration then .leaf (.instruction declarationContent) :: breakNodes indent? 0
        else []) = [] := by
    cases declaration with
    | false => rfl
    | true =>
      rw [if_pos rfl, Forest.elements, Forest.elements_breakNodes]
      rfl
  rw [documentNodes, rootNodes, Forest.elements_append, front, List.nil_append, Forest.elements,
    Node.elements, documentContent, Forest.elements_append, Forest.elements_breakNodes,
    Outlines.elements_nodes, List.append_nil]
  exact List.append_nil _

/-- Elements with a name come from headings with that name, unless the root has it. -/
theorem elementsNamed_documentNodes {name : String} (plain : IsPlain name) {other : String}
    (differs : name ≠ other) (declaration : Bool) (indent? : Option Nat) (uri : String)
    (children : List Outline) :
    elementsNamed other (documentNodes declaration indent? name uri children) =
      ((Outlines.headings children).filter (·.name = other)).map
        (Heading.element (.bound (encodeUtf8 (escape uri)))) := by
  rw [elementsNamed, elements_documentNodes,
    List.filter_cons_of_neg (by simpa [name_documentRoot plain] using differs), List.filter_map]
  congr 2
  funext heading
  rw [Function.comp_apply, heading.name_element]

end GraphMarkup.Markup

namespace GraphMarkup.Document

open GraphMarkup.Attributes
open GraphMarkup.Graph
open GraphMarkup.Markup
open GraphMarkup.Text
open GraphMarkup.Validation

/-! ## The elements of vertices and edges -/

theorem filter_name_eq_nil {name : String} {headings : List Heading} {names : List String}
    (named : ∀ heading ∈ headings, heading.name ∈ names) (other : name ∉ names) :
    headings.filter (·.name = name) = [] := by
  rw [List.filter_eq_nil_iff]
  intro heading member same
  rw [decide_eq_true_eq] at same
  exact other (same ▸ named heading member)

/-- The first headings of groups have a name if the others have not. -/
theorem filter_name_flatMap {α : Type} {name : String} {sources : List α} {first : α → Heading}
    {others : α → List Heading} (named : ∀ source, (first source).name = name)
    (none : ∀ source, (others source).filter (·.name = name) = []) :
    (sources.flatMap fun source => first source :: others source).filter (·.name = name) =
      sources.map first := by
  rw [List.filter_flatMap, List.map_eq_flatMap]
  congr 1
  funext source
  rw [List.filter_cons_of_pos (by simpa using named source), none source]

section

variable {V E A : Type} [Endpoints E V] (codecs : Codecs V E A) (settings : WriterSettings)
  (identities : Identities V E) (listing : Listing V E A)

theorem filter_name_dataOutlines {α : Type} {name : String} (other : ElementName.data ≠ name)
    (codec : Codec α) (owner : α) :
    (Outlines.headings (dataOutlines codec owner)).filter (·.name = name) = [] :=
  filter_name_eq_nil (fun _ member => List.mem_singleton.mpr (name_of_mem_dataOutlines member))
    (by simpa using other.symm)

/-- Elements of the graph with other names than those of declarations and data are nodes and
edges. -/
theorem filter_name_outlines {name : String}
    (other : name ∉ [ElementName.key, ElementName.default, ElementName.graph, ElementName.data]) :
    (Outlines.headings (outlines codecs settings identities listing)).filter (·.name = name) =
      (nodeHeadings codecs identities listing.vertices).filter (·.name = name) ++
        (edgeHeadings codecs identities listing.edges.zipIdx).filter (·.name = name) := by
  simp only [List.mem_cons, List.not_mem_nil, or_false, not_or] at other
  obtain ⟨notKey, notDefault, notGraph, notData⟩ := other
  have keys : ∀ {α : Type} (target : KeyTarget) (codec : Codec α),
      (Outlines.headings (keyOutlines target codec)).filter (·.name = name) = [] :=
    fun _ _ => filter_name_eq_nil (fun _ => name_of_mem_keyOutlines)
      (by simp [notKey, notDefault])
  have graph : [graphHeading settings listing].filter (·.name = name) = [] := by
    apply filter_name_eq_nil _ (List.mem_singleton.not.mpr notGraph)
    intro heading member
    rw [List.mem_singleton.mp member]
    exact List.mem_singleton_self _
  rw [headings_outlines]
  simp only [List.filter_append, keys, graph,
    filter_name_dataOutlines (Ne.symm notData) codecs.graph, List.nil_append]

/-- Nodes are written for the vertices. -/
theorem filter_node_outlines :
    (Outlines.headings (outlines codecs settings identities listing)).filter
        (·.name = ElementName.node) =
      listing.vertices.map fun vertex => nodeHeading (identities.vertex vertex) := by
  have nodes : (nodeHeadings codecs identities listing.vertices).filter
      (·.name = ElementName.node) = listing.vertices.map _ :=
    filter_name_flatMap (fun _ => rfl) fun vertex => filter_name_dataOutlines (by decide) _ _
  have edges : (edgeHeadings codecs identities listing.edges.zipIdx).filter
      (·.name = ElementName.node) = [] :=
    filter_name_eq_nil (fun _ => name_of_mem_edgeHeadings) (by decide)
  rw [filter_name_outlines _ _ _ _ (by decide), nodes, edges, List.append_nil]

/-- Edges are written for the edges. -/
theorem filter_edge_outlines :
    (Outlines.headings (outlines codecs settings identities listing)).filter
        (·.name = ElementName.edge) =
      listing.edges.zipIdx.map fun entry =>
        edgeHeading (identities.edge entry.2 entry.1)
          (identities.vertex (Endpoints.source entry.1))
          (identities.vertex (Endpoints.target entry.1)) := by
  have nodes : (nodeHeadings codecs identities listing.vertices).filter
      (·.name = ElementName.edge) = [] :=
    filter_name_eq_nil (fun _ => name_of_mem_nodeHeadings) (by decide)
  have edges : (edgeHeadings codecs identities listing.edges.zipIdx).filter
      (·.name = ElementName.edge) = listing.edges.zipIdx.map _ :=
    filter_name_flatMap (fun _ => rfl) fun entry => filter_name_dataOutlines (by decide) _ _
  rw [filter_name_outlines _ _ _ _ (by decide), nodes, edges, List.nil_append]

/-- The document of a listing is written, and its nodes have these ids and its edges these ends,
all of them and in order. -/
def WritesNames (type : GraphType V E A) (ids : List String) (ends : List (String × String)) :
    Prop :=
  ∃ document nodes,
    Document.document type settings (Hooks.none V E A) identities listing = .ok document ∧
      Describes document nodes ∧ (∀ others, Describes document others → others = nodes) ∧
        (elementsNamed ElementName.node nodes).map (·.value? AttributeName.id) = ids.map some ∧
          (elementsNamed ElementName.edge nodes).map (fun edge =>
              (edge.value? AttributeName.source, edge.value? AttributeName.target)) =
            ends.map fun names => (some names.1, some names.2)

/-- Nodes go by the ids of their vertices, and edges refer to the ids of their ends. -/
theorem writesNames_of_compile {type : GraphType V E A} (compiled : type.compile = .ok codecs) :
    WritesNames settings identities listing type (listing.vertices.map identities.vertex)
      (listing.edges.map fun edge =>
        (identities.vertex (Endpoints.source edge),
          identities.vertex (Endpoints.target edge))) := by
  have plain : IsPlain ElementName.graphml := by
    decide
  have bound : namespaceName ≠ "" := by
    decide
  have describes := describes_documentItems plain bound settings.declaration settings.indent?
    (outlines codecs settings identities listing)
  refine ⟨_, _, document_eq codecs settings identities listing compiled, describes,
    fun others => describes.unique, ?_, ?_⟩
  · rw [elementsNamed_documentNodes plain (by decide), filter_node_outlines, List.map_map,
      List.map_map, List.map_map]
    apply List.map_congr_left
    intro vertex _
    exact Heading.value?_element _ _ _
  · have ends := List.map_map (l := listing.edges.zipIdx) (f := Prod.fst) (g := fun edge =>
      (some (identities.vertex (Endpoints.source edge)),
        some (identities.vertex (Endpoints.target edge))))
    rw [List.zipIdx_map_fst] at ends
    rw [elementsNamed_documentNodes plain (by decide), filter_edge_outlines, List.map_map,
      List.map_map, List.map_map]
    refine Eq.trans ?_ ends.symm
    apply List.map_congr_left
    intro entry _
    exact Prod.ext (Heading.value?_element _ _ _) (Heading.value?_element _ _ _)

end

/-! ## Tags with hooks -/

section

variable {V E A : Type} [Endpoints E V] (codecs : Codecs V E A) (hooks : Hooks V E A)
  (identities : Identities V E)

/-- What is written in front stays in front, whatever follows or fails. -/
theorem Draft.exists_items_append (first : Item) (rest : List Item) (second third : Draft) :
    ∃ items, (Draft.ofItems (first :: rest) ++ second ++ third).items = first :: items := by
  obtain ⟨items, failure?⟩ := second
  cases failure? with
  | none => exact ⟨rest ++ items ++ third.items, rfl⟩
  | some error => exact ⟨rest ++ items, rfl⟩

/-- Whatever hooks append, the start tags of nodes and edges are those of vertices and edges. -/
def WritesTags : Prop :=
  (∀ vertex, ∃ items, (nodeDraft codecs hooks identities vertex).items =
    .opening ElementName.node [(AttributeName.id, identities.vertex vertex)] :: items) ∧
  ∀ position edge, ∃ items, (edgeDraft codecs hooks identities position edge).items =
    .opening ElementName.edge
      [(AttributeName.id, identities.edge position edge),
        (AttributeName.source, identities.vertex (Endpoints.source edge)),
        (AttributeName.target, identities.vertex (Endpoints.target edge))] :: items

theorem writesTags : WritesTags codecs hooks identities :=
  ⟨fun _ => Draft.exists_items_append _ _ _ _, fun _ _ => Draft.exists_items_append _ _ _ _⟩

end

/-! ## Numbered documents -/

section

variable {V E A : Type} [BEq V] [EquivBEq V] [Hashable V] [LawfulHashable V] [Endpoints E V]

/-- Where vertices are numbered, the documents of all listings name them by their first positions,
and so do the start tags whatever hooks append. The document of a graph that operations build has
the positions of the vertices as ids of the nodes, all different, and every edge refers to the
positions of its ends, which are among them. -/
theorem document_namesByPosition {type : GraphType V E A} {codecs : Codecs V E A}
    (compiled : type.compile = .ok codecs) (settings : WriterSettings)
    (edgeIdentity : Nat → E → String) :
    (∀ listing : Listing V E A,
      NamesByPosition listing.vertices (vertexIndexIdentity listing) ∧
        (∀ hooks, WritesTags codecs hooks ⟨vertexIndexIdentity listing, edgeIdentity⟩) ∧
        WritesNames settings ⟨vertexIndexIdentity listing, edgeIdentity⟩ listing type
          (listing.vertices.map (vertexIndexIdentity listing))
          (listing.edges.map fun edge =>
            (vertexIndexIdentity listing (Endpoints.source edge),
              vertexIndexIdentity listing (Endpoints.target edge)))) ∧
    ∀ graph : AdjacencyGraph V E A, graph.Reachable →
      let ids := (List.range graph.listing.vertices.length).map toString
      ids.Nodup ∧ ∃ ends : List (Nat × Nat),
        List.Forall₂ (fun edge positions =>
            IsFirstAt graph.listing.vertices (Endpoints.source edge) positions.1 ∧
              IsFirstAt graph.listing.vertices (Endpoints.target edge) positions.2)
          graph.listing.edges ends ∧
        WritesNames settings ⟨vertexIndexIdentity graph.listing, edgeIdentity⟩ graph.listing type
          ids (ends.map fun positions => (toString positions.1, toString positions.2)) ∧
        ∀ positions ∈ ends, toString positions.1 ∈ ids ∧ toString positions.2 ∈ ids := by
  constructor
  · intro listing
    exact ⟨namesByPosition_vertexIndexIdentity listing, fun hooks => writesTags _ hooks _,
      writesNames_of_compile codecs settings ⟨_, edgeIdentity⟩ listing compiled⟩
  · intro graph reachable ids
    have consistent := reachable.consistent
    have written := writesNames_of_compile codecs settings
      ⟨vertexIndexIdentity graph.listing, edgeIdentity⟩ graph.listing compiled
    rw [consistent.map_vertexIndexIdentity] at written
    obtain ⟨ends, pairs⟩ := exists_forall₂ fun edge member => consistent.exists_positions member
    refine ⟨nodup_range_map_toString _, ends, pairs, ?_, ?_⟩
    · have names := namesByPosition_vertexIndexIdentity graph.listing
      have same : graph.listing.edges.map (fun edge =>
            (vertexIndexIdentity graph.listing (Endpoints.source edge),
              vertexIndexIdentity graph.listing (Endpoints.target edge))) =
          ends.map fun positions => (toString positions.1, toString positions.2) := by
        rw [← List.forall₂_eq_eq_eq, List.forall₂_map_left_iff, List.forall₂_map_right_iff]
        refine pairs.imp fun edge positions atEnds => ?_
        rw [names.eq_toString atEnds.1, names.eq_toString atEnds.2]
      rw [same] at written
      exact written
    · intro positions member
      obtain ⟨edge, -, atSource, atTarget⟩ := exists_of_mem_partner pairs member
      exact ⟨List.mem_map_of_mem (List.mem_range.mpr atSource.lt_length),
        List.mem_map_of_mem (List.mem_range.mpr atTarget.lt_length)⟩

end

section

open GraphMarkup.Sample

/-- Three towns of which two are equal, and a road from there to a town that is not listed. -/
def twinTowns : Listing Town Road Network where
  directed := true
  attributes := {}
  vertices := [{ name := "a" }, { name := "b" }, { name := "a" }]
  edges :=
    [{ id := "r", source := { name := "a" }, target := { name := "c" }, length := unitLength }]

theorem names_twinTowns :
    twinTowns.vertices.map (vertexIndexIdentity twinTowns) = ["0", "1", "0"] ∧
      twinTowns.edges.map (fun road => (vertexIndexIdentity twinTowns (Endpoints.source road),
        vertexIndexIdentity twinTowns (Endpoints.target road))) = [("0", "")] := by
  have names : vertexIndexIdentity twinTowns = fun town =>
      ((twinTowns.vertices.findIdx? (· == town)).map toString).getD "" :=
    funext fun town => vertexIndexIdentity_eq twinTowns town
  rw [names]
  decide +kernel

/-- Equal towns have one id, and a road may refer to no node. In a network that was built towns have
ids of their own and every road refers to two of them. -/
theorem namesByPosition_townGraph :
    roadGraphType.compile = .ok roadCodecs ∧
      WritesNames {} ⟨vertexIndexIdentity twinTowns, fun _ road => road.id⟩ twinTowns roadGraphType
        ["0", "1", "0"] [("0", "")] ∧
      townGraph.Reachable ∧
      WritesNames {} ⟨vertexIndexIdentity townGraph.listing, fun _ road => road.id⟩
        townGraph.listing roadGraphType ["0", "1"] [("0", "1")] := by
  have reachable : townGraph.Reachable := ⟨_, _, _, _, rfl⟩
  obtain ⟨listings, graphs⟩ :=
    document_namesByPosition compile_roadGraphType {} fun _ road => road.id
  have twins := (listings twinTowns).2.2
  rw [names_twinTowns.1, names_twinTowns.2] at twins
  obtain ⟨-, ends, pairs, written, -⟩ := graphs townGraph reachable
  rw [vertices_townGraph] at pairs written
  rw [edges_townGraph] at pairs
  obtain ⟨positions, none, ⟨atSource, atTarget⟩, nothing, rfl⟩ :=
    List.forall₂_cons_left_iff.mp pairs
  cases nothing
  have source : positions.1 = 0 :=
    atSource.unique (findIdx?_eq_some_iff_isFirstAt.mp (by decide))
  have target : positions.2 = 1 :=
    atTarget.unique (findIdx?_eq_some_iff_isFirstAt.mp (by decide))
  rw [List.map_singleton, source, target] at written
  exact ⟨compile_roadGraphType, twins, reachable, written⟩

end

end GraphMarkup.Document
