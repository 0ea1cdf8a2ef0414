import GraphMarkup.Document.Writer
import GraphMarkup.Proofs.Markup.Outline

/-!
# Outlines of graph documents

Without hooks the writer writes an outline: the declarations of attributes, and a
graph element with the data of the graph, its nodes and its edges. What it writes
is read back as the tree of this outline.
-/

namespace GraphMarkup.Document

open GraphMarkup.Attributes
open GraphMarkup.Graph
open GraphMarkup.Markup
open GraphMarkup.Text

/-! ## The outline of a document -/

/-- The heading of the declaration of an attribute. -/
def keyHeading {α : Type} (target : KeyTarget) (property : Property α) : Heading :=
  .ofKeys ElementName.key
    [(AttributeName.id, property.name), (AttributeName.owner, target.name),
      (AttributeName.name, property.name),
      (AttributeName.valueType, property.kind.declaredName)]
    (by decide : Heading.AllowsKeys ElementName.key
      [AttributeName.id, AttributeName.owner, AttributeName.name, AttributeName.valueType])

/-- The heading of a default. -/
def defaultHeading : Heading :=
  .ofKeys ElementName.default [] (by decide : Heading.AllowsKeys ElementName.default [])

/-- The default in the declaration of an attribute. -/
def defaultOutlines {α : Type} (property : Property α) : List Outline :=
  match property.defaultText? with
  | none => []
  | some text => [.value defaultHeading text]

/-- The declaration of an attribute. -/
def keyOutline {α : Type} (target : KeyTarget) (property : Property α) : Outline :=
  .branch (keyHeading target property) (defaultOutlines property)

/-- The declarations of a type's attributes. -/
def keyOutlines {α : Type} (target : KeyTarget) (codec : Codec α) : List Outline :=
  codec.properties.map (keyOutline target)

/-- The declarations of all attributes in a graph. -/
def declarationOutlines {V E A : Type} (codecs : Codecs V E A) : List Outline :=
  keyOutlines .graph codecs.graph ++ keyOutlines .node codecs.vertex ++
    keyOutlines .edge codecs.edge

/-- The heading of a piece of data. -/
def dataHeading (key : String) : Heading :=
  .ofKeys ElementName.data [(AttributeName.key, key)]
    (by decide : Heading.AllowsKeys ElementName.data [AttributeName.key])

/-- A piece of data. -/
def dataOutline (entry : String × String) : Outline :=
  .value (dataHeading entry.1) entry.2

/-- The data of an instance. -/
def dataOutlines {α : Type} (codec : Codec α) (owner : α) : List Outline :=
  (codec.write owner).map dataOutline

/-- The heading of a node. -/
def nodeHeading (id : String) : Heading :=
  .ofKeys ElementName.node [(AttributeName.id, id)]
    (by decide : Heading.AllowsKeys ElementName.node [AttributeName.id])

/-- The heading of an edge. -/
def edgeHeading (id source target : String) : Heading :=
  .ofKeys ElementName.edge
    [(AttributeName.id, id), (AttributeName.source, source), (AttributeName.target, target)]
    (by decide : Heading.AllowsKeys ElementName.edge
      [AttributeName.id, AttributeName.source, AttributeName.target])

section

variable {V E A : Type} [Endpoints E V]

/-- A node. -/
def nodeOutline (codecs : Codecs V E A) (identities : Identities V E) (vertex : V) : Outline :=
  .branch (nodeHeading (identities.vertex vertex)) (dataOutlines codecs.vertex vertex)

/-- The edge at a position. -/
def edgeOutline (codecs : Codecs V E A) (identities : Identities V E) (position : Nat)
    (edge : E) : Outline :=
  .branch
    (edgeHeading (identities.edge position edge) (identities.vertex (Endpoints.source edge))
      (identities.vertex (Endpoints.target edge)))
    (dataOutlines codecs.edge edge)

/-- The heading of a graph. -/
def graphHeading (settings : WriterSettings) (listing : Listing V E A) : Heading :=
  .ofKeys ElementName.graph
    [(AttributeName.id, settings.graphId),
      (AttributeName.edgeDefault, (EdgeDefault.ofDirected listing.directed).name),
      (AttributeName.nodeCount, toString listing.vertexCount),
      (AttributeName.edgeCount, toString listing.edgeCount),
      (AttributeName.order, nodesFirst),
      (AttributeName.nodeIds, freeIds),
      (AttributeName.edgeIds, freeIds)]
    (by decide : Heading.AllowsKeys ElementName.graph
      [AttributeName.id, AttributeName.edgeDefault, AttributeName.nodeCount,
        AttributeName.edgeCount, AttributeName.order, AttributeName.nodeIds,
        AttributeName.edgeIds])

/-- What stands in a graph element. -/
def graphOutlines (codecs : Codecs V E A) (identities : Identities V E)
    (listing : Listing V E A) : List Outline :=
  dataOutlines codecs.graph listing.attributes ++
    listing.vertices.map (nodeOutline codecs identities) ++
    listing.edges.mapIdx (edgeOutline codecs identities)

/-- What stands in the root of a document. -/
def outlines (codecs : Codecs V E A) (settings : WriterSettings) (identities : Identities V E)
    (listing : Listing V E A) : List Outline :=
  keyOutlines .graph codecs.graph ++ keyOutlines .node codecs.vertex ++
    keyOutlines .edge codecs.edge ++
    [.branch (graphHeading settings listing) (graphOutlines codecs identities listing)]

end

/-! ## The items of an outline -/

theorem items_append (front back : List Outline) :
    Outlines.items (front ++ back) = Outlines.items front ++ Outlines.items back := by
  induction front with
  | nil => rfl
  | cons outline front ih =>
    rw [List.cons_append, Outlines.items, ih, Outlines.items, List.append_assoc]

theorem items_eq_flatMap (outlines : List Outline) :
    Outlines.items outlines = outlines.flatMap Outline.items := by
  induction outlines with
  | nil => rfl
  | cons outline outlines ih => rw [Outlines.items, ih, List.flatMap_cons]

theorem items_keyOutlines {α : Type} (target : KeyTarget) (codec : Codec α) :
    Outlines.items (keyOutlines target codec) = keyItems target codec := by
  rw [items_eq_flatMap, keyOutlines, List.flatMap_map, keyItems]
  congr 1
  funext property
  rw [keyOutline, Outline.items, defaultOutlines]
  cases property.defaultText? with
  | none => rfl
  | some text => rfl

theorem items_dataOutlines {α : Type} (codec : Codec α) (owner : α) :
    Outlines.items (dataOutlines codec owner) = dataItems codec owner := by
  rw [items_eq_flatMap, dataOutlines, List.flatMap_map, dataItems]
  rfl

/-! ## Drafts without hooks -/

namespace Draft

@[simp]
theorem ofItems_append (front back : List Item) :
    ofItems front ++ ofItems back = ofItems (front ++ back) :=
  rfl

theorem concat_map_ofItems {α : Type} (write : α → List Item) (sources : List α) :
    concat (sources.map fun source => ofItems (write source)) =
      ofItems (sources.flatMap write) := by
  induction sources with
  | nil => rfl
  | cons source sources ih =>
    rw [List.flatMap_cons, ← ofItems_append, ← ih]
    rfl

end Draft

section

variable {V E A : Type} [Endpoints E V]
  (codecs : Codecs V E A) (settings : WriterSettings) (identities : Identities V E)
  (listing : Listing V E A)

omit [Endpoints E V] in
theorem nodeDraft_none (vertex : V) :
    nodeDraft codecs (Hooks.none V E A) identities vertex =
      Draft.ofItems (nodeOutline codecs identities vertex).items := by
  rw [nodeDraft, nodeOutline, Outline.items, items_dataOutlines]
  simp [Hooks.none, Heading.opening, Heading.closing, nodeHeading, Heading.ofKeys]

theorem edgeDraft_none (position : Nat) (edge : E) :
    edgeDraft codecs (Hooks.none V E A) identities position edge =
      Draft.ofItems (edgeOutline codecs identities position edge).items := by
  rw [edgeDraft, edgeOutline, Outline.items, items_dataOutlines]
  simp [Hooks.none, Heading.opening, Heading.closing, edgeHeading, Heading.ofKeys]

/-- Without hooks the items of a document are those of its outline. -/
theorem draft_none :
    draft codecs settings (Hooks.none V E A) identities listing =
      Draft.ofItems (documentItems settings.declaration ElementName.graphml namespaceName
        (outlines codecs settings identities listing)) := by
  have nodes : Draft.concat (listing.vertices.map
      (nodeDraft codecs (Hooks.none V E A) identities)) =
        Draft.ofItems (Outlines.items
          (listing.vertices.map (nodeOutline codecs identities))) := by
    rw [funext (nodeDraft_none codecs identities), Draft.concat_map_ofItems, items_eq_flatMap,
      List.flatMap_map]
  have edges : Draft.concat (listing.edges.mapIdx
      (edgeDraft codecs (Hooks.none V E A) identities)) =
        Draft.ofItems (Outlines.items
          (listing.edges.mapIdx (edgeOutline codecs identities))) := by
    simp only [List.mapIdx_eq_zipIdx_map, edgeDraft_none]
    rw [Draft.concat_map_ofItems (fun entry : E × Nat =>
      (edgeOutline codecs identities entry.2 entry.1).items), items_eq_flatMap, List.flatMap_map]
  have hook : (Hooks.none V E A).graph listing = .ofItems [] := rfl
  have graph : graphOpening settings listing = (graphHeading settings listing).opening := rfl
  have closing : (graphHeading settings listing).closing = .closing ElementName.graph := rfl
  rw [draft, nodes, edges, hook]
  simp only [Draft.ofItems_append, headItems, documentItems, rootItems, outlines,
    graphOutlines, items_append, items_keyOutlines, items_dataOutlines, Outlines.items,
    Outline.items, graph, closing]
  simp

variable {codecs settings identities listing} in
/-- A document whose draft does not fail is written if the declarations are sound. -/
theorem document_of_draft {type : GraphType V E A} (compiled : type.compile = .ok codecs)
    {hooks : Hooks V E A} {items : List Item}
    (drafted : draft codecs settings hooks identities listing = Draft.ofItems items) :
    document type settings hooks identities listing =
      .ok (rendered settings.indent? .initial items) := by
  rw [document, write, compiled]
  dsimp only
  rw [drafted, Sink.send_unlimited, Draft.pieces, rendered, List.flatMap_def]
  rfl

/-- Without hooks a document is written if the declarations are sound. -/
theorem document_eq {type : GraphType V E A} (compiled : type.compile = .ok codecs) :
    document type settings (Hooks.none V E A) identities listing =
      .ok (rendered settings.indent? .initial
        (documentItems settings.declaration ElementName.graphml namespaceName
          (outlines codecs settings identities listing))) :=
  document_of_draft compiled (draft_none codecs settings identities listing)

end

end GraphMarkup.Document
