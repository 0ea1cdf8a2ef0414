import GraphMarkup.Proofs.Document.Outlines
import GraphMarkup.Proofs.Markup.Tree
import GraphMarkup.Sample.Roads

/-!
# What written documents say

A document without additions says what a graph, its identities and its codecs are made
of, whatever characters stand in ids, names, defaults and values: the declarations of
attributes, and one graph element with the attributes of the graph, its nodes and its
edges. An attribute is written unless it has its default.
-/

namespace GraphMarkup.Document

open GraphMarkup.Attributes
open GraphMarkup.Graph
open GraphMarkup.Markup
open GraphMarkup.Text

/-! ## The tree of a graph -/

/-- The elements whose content is a text. -/
def holdsText (name : String) : Bool :=
  name == ElementName.data || name == ElementName.default

/-- An element of the vocabulary. -/
def vocabularyTree (name : String) (attributes : List (String × String))
    (children : List Tree) : Tree :=
  .element name (some namespaceName) attributes children

/-- The declaration of an attribute, with its default if it has one. -/
def keyTree {α : Type} (target : KeyTarget) (property : Property α) : Tree :=
  vocabularyTree ElementName.key
    [(AttributeName.id, property.name), (AttributeName.owner, target.name),
      (AttributeName.name, property.name),
      (AttributeName.valueType, property.kind.declaredName)]
    (match property.default? with
      | some value =>
          [vocabularyTree ElementName.default [] (textTrees (property.kind.write value))]
      | none => [])

/-- The declarations of a type's attributes, in their order. -/
def keyTrees {α : Type} (target : KeyTarget) (codec : Codec α) : List Tree :=
  codec.properties.map (keyTree target)

/-- Whether an attribute of an instance has its default. -/
def hasDefault {α : Type} (owner : α) (property : Property α) : Bool :=
  property.default?.any (property.kind.equals (property.get owner))

/-- The value of an attribute, exactly. -/
def dataTree {α : Type} (owner : α) (property : Property α) : Tree :=
  vocabularyTree ElementName.data [(AttributeName.key, property.name)]
    (textTrees (property.kind.write (property.get owner)))

/-- The attributes of an instance in their order, apart from those that have their defaults. -/
def dataTrees {α : Type} (codec : Codec α) (owner : α) : List Tree :=
  (codec.properties.filter fun property => !hasDefault owner property).map (dataTree owner)

mutual

/-- The number of elements with a name in a tree. -/
def elementCount (name : String) : Tree → Nat
  | .element found _ _ children =>
      (if found = name then 1 else 0) + elementCounts name children
  | .text _ => 0
  | .other _ => 0

/-- The number of elements with a name in some trees. -/
def elementCounts (name : String) : List Tree → Nat
  | [] => 0
  | tree :: trees => elementCount name tree + elementCounts name trees

end

section

variable {V E A : Type} [Endpoints E V]
  (codecs : Codecs V E A) (settings : WriterSettings) (identities : Identities V E)
  (listing : Listing V E A)

omit [Endpoints E V] in
/-- A vertex. -/
def nodeTree (vertex : V) : Tree :=
  vocabularyTree ElementName.node [(AttributeName.id, identities.vertex vertex)]
    (dataTrees codecs.vertex vertex)

/-- The edge at a position. -/
def edgeTree (position : Nat) (edge : E) : Tree :=
  vocabularyTree ElementName.edge
    [(AttributeName.id, identities.edge position edge),
      (AttributeName.source, identities.vertex (Endpoints.source edge)),
      (AttributeName.target, identities.vertex (Endpoints.target edge))]
    (dataTrees codecs.edge edge)

/-- The attributes of a graph, its vertices and its edges. -/
def contentTrees : List Tree :=
  dataTrees codecs.graph listing.attributes ++ listing.vertices.map (nodeTree codecs identities) ++
    listing.edges.mapIdx (edgeTree codecs identities)

/-- A graph, which tells the numbers of node and edge elements in it. -/
def graphTree : Tree :=
  vocabularyTree ElementName.graph
    [(AttributeName.id, settings.graphId),
      (AttributeName.edgeDefault, (EdgeDefault.ofDirected listing.directed).name),
      (AttributeName.nodeCount,
        toString (elementCounts ElementName.node (contentTrees codecs identities listing))),
      (AttributeName.edgeCount,
        toString (elementCounts ElementName.edge (contentTrees codecs identities listing))),
      (AttributeName.order, nodesFirst), (AttributeName.nodeIds, freeIds),
      (AttributeName.edgeIds, freeIds)]
    (contentTrees codecs identities listing)

/-- A whole document. -/
def documentTrees : List Tree :=
  (if settings.declaration then [.other (.instruction declarationContent)] else []) ++
    [vocabularyTree ElementName.graphml [("xmlns", namespaceName)]
      (keyTrees .graph codecs.graph ++ keyTrees .node codecs.vertex ++
        keyTrees .edge codecs.edge ++ [graphTree codecs settings identities listing])]

end

/-! ## Counting elements -/

theorem elementCounts_append (name : String) (front back : List Tree) :
    elementCounts name (front ++ back) = elementCounts name front + elementCounts name back := by
  induction front with
  | nil => exact (Nat.zero_add _).symm
  | cons tree front ih => rw [List.cons_append, elementCounts, ih, elementCounts, Nat.add_assoc]

/-- Trees that all have the same number of elements. -/
theorem elementCounts_eq_mul {name : String} {trees : List Tree} {count : Nat}
    (each : ∀ tree ∈ trees, elementCount name tree = count) :
    elementCounts name trees = trees.length * count := by
  induction trees with
  | nil => exact (Nat.zero_mul _).symm
  | cons tree trees ih =>
    rw [elementCounts, each tree List.mem_cons_self,
      ih fun other member => each other (List.mem_cons_of_mem _ member), List.length_cons,
      Nat.succ_mul, Nat.add_comm]

theorem elementCounts_textTrees (name text : String) : elementCounts name (textTrees text) = 0 := by
  rw [textTrees]
  split
  · rfl
  · rfl

/-- Data hold no elements. -/
theorem elementCounts_dataTrees {α : Type} {name : String} (other : ElementName.data ≠ name)
    (codec : Codec α) (owner : α) : elementCounts name (dataTrees codec owner) = 0 := by
  have each : ∀ tree ∈ dataTrees codec owner, elementCount name tree = 0 := by
    intro tree member
    obtain ⟨property, _, rfl⟩ := List.mem_map.mp member
    rw [dataTree, vocabularyTree, elementCount, if_neg other, elementCounts_textTrees]
  rw [elementCounts_eq_mul each, Nat.mul_zero]

section

variable {V E A : Type} [Endpoints E V]
  (codecs : Codecs V E A) (identities : Identities V E) (listing : Listing V E A)

/-- Every vertex and every edge is an element, and nothing else is. -/
theorem elementCounts_contentTrees {name : String} (other : ElementName.data ≠ name) :
    elementCounts name (contentTrees codecs identities listing) =
      listing.vertices.length * (if ElementName.node = name then 1 else 0) +
        listing.edges.length * (if ElementName.edge = name then 1 else 0) := by
  rw [contentTrees, elementCounts_append, elementCounts_append, elementCounts_dataTrees other,
    Nat.zero_add]
  congr 1
  · rw [elementCounts_eq_mul, List.length_map]
    intro tree member
    obtain ⟨vertex, _, rfl⟩ := List.mem_map.mp member
    rw [nodeTree, vocabularyTree, elementCount, elementCounts_dataTrees other, Nat.add_zero]
  · rw [elementCounts_eq_mul, List.length_mapIdx]
    intro tree member
    obtain ⟨position, less, rfl⟩ := List.mem_mapIdx.mp member
    rw [edgeTree, vocabularyTree, elementCount, elementCounts_dataTrees other, Nat.add_zero]

end

/-! ## What outlines say -/

theorem trees_keyOutlines {α : Type} (target : KeyTarget) (codec : Codec α) :
    (keyOutlines target codec).map (Outline.tree namespaceName) = keyTrees target codec := by
  rw [keyOutlines, List.map_map, keyTrees]
  apply List.map_congr_left
  intro property _
  rw [Function.comp_apply, keyOutline, Outline.tree, defaultOutlines, Property.defaultText?,
    keyTree]
  cases property.default? with
  | none => rfl
  | some value => rfl

theorem trees_dataOutlines {α : Type} (codec : Codec α) (owner : α) :
    (dataOutlines codec owner).map (Outline.tree namespaceName) = dataTrees codec owner := by
  have each : ∀ property : Property α,
      (((property.write? owner).map (property.name, ·)).map dataOutline).map
          (Outline.tree namespaceName) =
        if !hasDefault owner property then some (dataTree owner property) else none := by
    intro property
    rw [Property.write?, ← hasDefault]
    cases hasDefault owner property with
    | true => rfl
    | false => rfl
  rw [dataOutlines, Codec.write, List.map_filterMap, List.map_filterMap, funext each, dataTrees,
    ← List.filterMap_eq_map, List.filterMap_filter]
  rfl

section

variable {V E A : Type} [Endpoints E V]
  (codecs : Codecs V E A) (settings : WriterSettings) (identities : Identities V E)
  (listing : Listing V E A)

theorem trees_graphOutlines :
    Outlines.trees namespaceName (graphOutlines codecs identities listing) =
      contentTrees codecs identities listing := by
  have nodes : ∀ vertex, (nodeOutline codecs identities vertex).tree namespaceName =
      nodeTree codecs identities vertex := by
    intro vertex
    rw [nodeOutline, Outline.tree, Outlines.trees_eq_map, trees_dataOutlines]
    rfl
  have edges : ∀ position edge,
      (edgeOutline codecs identities position edge).tree namespaceName =
        edgeTree codecs identities position edge := by
    intro position edge
    rw [edgeOutline, Outline.tree, Outlines.trees_eq_map, trees_dataOutlines]
    rfl
  rw [Outlines.trees_eq_map, graphOutlines, List.map_append, List.map_append,
    trees_dataOutlines, List.map_map, List.mapIdx_eq_zipIdx_map, List.map_map, contentTrees,
    List.mapIdx_eq_zipIdx_map]
  simp only [Function.comp_def, nodes, edges]

/-- Texts stand only in data and defaults. -/
theorem keep_dataOutlines {α : Type} (codec : Codec α) (owner : α) :
    Outlines.Keep holdsText (dataOutlines codec owner) := by
  rw [Outlines.keep_iff]
  intro outline member
  obtain ⟨entry, _, rfl⟩ := List.mem_map.mp member
  exact (by decide : holdsText ElementName.data)

theorem keep_keyOutlines {α : Type} (target : KeyTarget) (codec : Codec α) :
    Outlines.Keep holdsText (keyOutlines target codec) := by
  rw [Outlines.keep_iff]
  intro outline member
  obtain ⟨property, _, rfl⟩ := List.mem_map.mp member
  refine ⟨(by decide : holdsText ElementName.key = false), ?_⟩
  rw [defaultOutlines]
  cases property.defaultText? with
  | none => trivial
  | some text => exact ⟨(by decide : holdsText ElementName.default), trivial⟩

theorem keep_graphOutlines :
    Outlines.Keep holdsText (graphOutlines codecs identities listing) := by
  rw [Outlines.keep_iff, graphOutlines]
  intro outline member
  rcases List.mem_append.mp member with inFront | inEdges
  · rcases List.mem_append.mp inFront with inData | inNodes
    · have ofGraph := keep_dataOutlines codecs.graph listing.attributes
      exact (Outlines.keep_iff _).mp ofGraph outline inData
    · obtain ⟨vertex, _, rfl⟩ := List.mem_map.mp inNodes
      exact ⟨(by decide : holdsText ElementName.node = false), keep_dataOutlines _ _⟩
  · obtain ⟨position, less, rfl⟩ := List.mem_mapIdx.mp inEdges
    exact ⟨(by decide : holdsText ElementName.edge = false), keep_dataOutlines _ _⟩

/-- In all that is written texts stand only in data and defaults. -/
theorem keep_outlines :
    Outlines.Keep holdsText (outlines codecs settings identities listing) := by
  have graph : (Outline.branch (graphHeading settings listing)
      (graphOutlines codecs identities listing)).Keeps holdsText :=
    ⟨(by decide : holdsText ElementName.graph = false),
      keep_graphOutlines codecs identities listing⟩
  simp only [outlines, Outlines.keep_append]
  exact ⟨⟨⟨keep_keyOutlines _ _, keep_keyOutlines _ _⟩, keep_keyOutlines _ _⟩, graph, trivial⟩

/-- What is outlined is the tree of the graph if it tells its own counts. -/
theorem trees_outlines (vertexCount : listing.vertexCount = listing.vertices.length)
    (edgeCount : listing.edgeCount = listing.edges.length) :
    Outlines.trees namespaceName (outlines codecs settings identities listing) =
      keyTrees .graph codecs.graph ++ keyTrees .node codecs.vertex ++
        keyTrees .edge codecs.edge ++ [graphTree codecs settings identities listing] := by
  rw [Outlines.trees_eq_map, outlines, List.map_append, List.map_append, List.map_append,
    trees_keyOutlines, trees_keyOutlines, trees_keyOutlines, List.map_singleton, Outline.tree,
    trees_graphOutlines, graphTree, elementCounts_contentTrees _ _ _ (by decide),
    elementCounts_contentTrees _ _ _ (by decide), if_pos rfl, if_neg (by decide),
    if_neg (by decide), if_pos rfl, Nat.mul_one, Nat.mul_zero, Nat.mul_one, Nat.mul_zero,
    Nat.add_zero, Nat.zero_add, ← vertexCount, ← edgeCount]
  rfl

/-- A document without additions is well-formed, has one forest, and says the tree of its graph if
this tells its own counts. -/
theorem trees_document {type : GraphType V E A} (compiled : type.compile = .ok codecs)
    (vertexCount : listing.vertexCount = listing.vertices.length)
    (edgeCount : listing.edgeCount = listing.edges.length) :
    ∃ document nodes,
      Document.document type settings (Hooks.none V E A) identities listing = .ok document ∧
        Describes document nodes ∧ Forest.WellFormed nodes ∧
          (∀ others, Describes document others → others = nodes) ∧
            Forest.trees holdsText false nodes =
              documentTrees codecs settings identities listing := by
  have plain : IsPlain ElementName.graphml := by
    decide
  have bound : namespaceName ≠ "" := by
    decide
  have describes := describes_documentItems plain bound settings.declaration settings.indent?
    (outlines codecs settings identities listing)
  refine ⟨_, _, document_eq codecs settings identities listing compiled, describes,
    wellFormed_documentNodes plain _ _ _ _, fun others => describes.unique, ?_⟩
  rw [trees_documentNodes plain (by decide) namespaceName settings.declaration settings.indent?
    (keep_outlines codecs settings identities listing),
    trees_outlines codecs settings identities listing vertexCount edgeCount]
  rfl

end

section

open GraphMarkup.Sample

/-- A town whose name looks like markup, and a road from there to an unnamed town. -/
def markupTowns : Listing Town Road Network where
  directed := false
  attributes := { label := "</data>" }
  vertices := [{ name := "]]> & <\"\n", size := 7 }, { name := "", tags := some ["&lt;"] }]
  edges :=
    [{ id := "'", source := { name := "]]> & <\"\n" }, target := { name := "" },
       length := unitLength }]

/-- Nothing in the names of towns is taken for markup. -/
theorem trees_markupTowns :
    ∃ codecs document nodes, roadGraphType.compile = .ok codecs ∧
      markupTowns.vertexCount = 2 ∧ markupTowns.edgeCount = 1 ∧
        Document.document roadGraphType { graphId := "<" } (Hooks.none Town Road Network)
            roadIdentities markupTowns = .ok document ∧
          Describes document nodes ∧ Forest.WellFormed nodes ∧
            (∀ others, Describes document others → others = nodes) ∧
              Forest.trees holdsText false nodes =
                documentTrees codecs { graphId := "<" } roadIdentities markupTowns := by
  have compiled : ∃ codecs, roadGraphType.compile = .ok codecs := ⟨_, rfl⟩
  obtain ⟨codecs, compiled⟩ := compiled
  obtain ⟨document, nodes, written⟩ :=
    trees_document codecs { graphId := "<" } roadIdentities markupTowns compiled rfl rfl
  exact ⟨codecs, document, nodes, compiled, rfl, rfl, written⟩

end

end GraphMarkup.Document
