import GraphMarkup.Document.Codecs
import GraphMarkup.Document.Sink
import GraphMarkup.Document.Vocabulary
import GraphMarkup.Graph.Identity
import GraphMarkup.Markup.Printer

/-!
# Writing documents

A document declares the attributes of the graph, of vertices and of edges as
keys; behind them stands the graph with its own data, its vertices and its
edges, each with the data of the attributes that differ from their defaults.
Hooks may put further content at the end of each of them. A hook may fail, and
so may the sink that the document is written to; what was written until then
stays written.
-/

namespace GraphMarkup.Document

open GraphMarkup.Graph
open GraphMarkup.Markup
open GraphMarkup.Attributes
open GraphMarkup.Text

/-- How documents are written. -/
structure WriterSettings where
  /-- Begin with a declaration. -/
  declaration : Bool := true
  /-- The width of one level of indentation; without one the document has no
  line breaks. -/
  indent? : Option Nat := some 2
  graphId : String := "G"
deriving DecidableEq, Repr

/-- The settings without declaration and line breaks. -/
def WriterSettings.compact : WriterSettings :=
  { declaration := false, indent? := none }

/-- What is written of a document: its items, up to a failure if there is one. -/
structure Draft where
  items : List Item
  failure? : Option Error
deriving DecidableEq, Repr

namespace Draft

/-- Items that are written without fail. -/
def ofItems (items : List Item) : Draft :=
  ⟨items, none⟩

/-- One draft behind another, unless the first one fails. -/
def append (first second : Draft) : Draft :=
  match first.failure? with
  | some _ => first
  | none => ⟨first.items ++ second.items, second.failure?⟩

instance : Append Draft :=
  ⟨append⟩

/-- Drafts behind one another, up to the first that fails. -/
def concat (drafts : List Draft) : Draft :=
  drafts.foldr append (ofItems [])

end Draft

/-- Content that is written behind the data of the graph, of a vertex and of an
edge. A hook that fails may have written something before. -/
structure Hooks (V E A : Type) where
  graph : Listing V E A → Draft
  vertex : V → Draft
  edge : E → Draft

/-- The hooks that write nothing. -/
def Hooks.none (V E A : Type) : Hooks V E A where
  graph _ := .ofItems []
  vertex _ := .ofItems []
  edge _ := .ofItems []

/-- The declarations of a type's attributes. -/
def keyItems {α : Type} (target : KeyTarget) (codec : Codec α) : List Item :=
  codec.properties.flatMap fun property =>
    let default :=
      match property.defaultText? with
      | none => []
      | some text =>
          [.opening ElementName.default [], .text text, .closing ElementName.default]
    .opening ElementName.key
        [(AttributeName.id, property.name), (AttributeName.owner, target.name),
          (AttributeName.name, property.name),
          (AttributeName.valueType, property.kind.declaredName)] ::
      default ++ [.closing ElementName.key]

/-- The data of an instance. -/
def dataItems {α : Type} (codec : Codec α) (owner : α) : List Item :=
  (codec.write owner).flatMap fun (name, text) =>
    [.opening ElementName.data [(AttributeName.key, name)], .text text,
      .closing ElementName.data]

variable {V E A : Type} [Endpoints E V]

/-- One vertex. -/
def nodeDraft (codecs : Codecs V E A) (hooks : Hooks V E A) (identities : Identities V E)
    (vertex : V) : Draft :=
  let opening :=
    Item.opening ElementName.node [(AttributeName.id, identities.vertex vertex)]
  Draft.ofItems (opening :: dataItems codecs.vertex vertex) ++
    hooks.vertex vertex ++ Draft.ofItems [.closing ElementName.node]

/-- The edge at a position. -/
def edgeDraft (codecs : Codecs V E A) (hooks : Hooks V E A) (identities : Identities V E)
    (position : Nat) (edge : E) : Draft :=
  let opening :=
    Item.opening ElementName.edge
      [(AttributeName.id, identities.edge position edge),
        (AttributeName.source, identities.vertex (Endpoints.source edge)),
        (AttributeName.target, identities.vertex (Endpoints.target edge))]
  Draft.ofItems (opening :: dataItems codecs.edge edge) ++
    hooks.edge edge ++ Draft.ofItems [.closing ElementName.edge]

/-- The start tag of a graph. -/
def graphOpening (settings : WriterSettings) (listing : Listing V E A) : Item :=
  .opening ElementName.graph
    [(AttributeName.id, settings.graphId),
      (AttributeName.edgeDefault, (EdgeDefault.ofDirected listing.directed).name),
      (AttributeName.nodeCount, toString listing.vertexCount),
      (AttributeName.edgeCount, toString listing.edgeCount),
      (AttributeName.order, nodesFirst),
      (AttributeName.nodeIds, freeIds),
      (AttributeName.edgeIds, freeIds)]

/-- What stands in front of the content of a graph. -/
def headItems (codecs : Codecs V E A) (settings : WriterSettings) (listing : Listing V E A) :
    List Item :=
  (if settings.declaration then [.declaration] else []) ++
    [.opening ElementName.graphml [("xmlns", namespaceName)]] ++
    keyItems .graph codecs.graph ++ keyItems .node codecs.vertex ++
    keyItems .edge codecs.edge ++
    [graphOpening settings listing]

/-- A whole document. -/
def draft (codecs : Codecs V E A) (settings : WriterSettings) (hooks : Hooks V E A)
    (identities : Identities V E) (listing : Listing V E A) : Draft :=
  Draft.ofItems (headItems codecs settings listing) ++
    Draft.ofItems (dataItems codecs.graph listing.attributes) ++
    hooks.graph listing ++
    Draft.concat (listing.vertices.map (nodeDraft codecs hooks identities)) ++
    Draft.concat (listing.edges.mapIdx (edgeDraft codecs hooks identities)) ++
    Draft.ofItems [.closing ElementName.graph, .closing ElementName.graphml]

/-- The pieces that a draft is written in, one for each item. -/
def Draft.pieces (indent? : Option Nat) (draft : Draft) : List Bytes :=
  (renderFrom indent? .initial draft.items).map encodeUtf8

/-- Write a graph to a sink. The declarations are checked before anything is
written. -/
def write (type : GraphType V E A) (settings : WriterSettings) (hooks : Hooks V E A)
    (identities : Identities V E) (listing : Listing V E A) (sink : Sink) : Delivery :=
  match type.compile with
  | .error error => ⟨[], some (.configuration error)⟩
  | .ok codecs =>
      let draft := draft codecs settings hooks identities listing
      (sink.send (draft.pieces settings.indent?)).endedBy draft.failure?

/-- The document of a graph. -/
def document (type : GraphType V E A) (settings : WriterSettings) (hooks : Hooks V E A)
    (identities : Identities V E) (listing : Listing V E A) : Except Error Bytes :=
  (write type settings hooks identities listing .unlimited).result

/-- Write a graph to a file, which is made before anything is checked. -/
def writeStored (created : Except FileError Unit) (type : GraphType V E A)
    (settings : WriterSettings) (hooks : Hooks V E A) (identities : Identities V E)
    (listing : Listing V E A) : Except Error Bytes :=
  match created with
  | .error cause => .error (.file cause)
  | .ok () => document type settings hooks identities listing

end GraphMarkup.Document
