import GraphMarkup.Document.Codecs
import GraphMarkup.Document.Content
import GraphMarkup.Validation.Validator

/-!
# Reading documents

A document is read onto a graph in one pass. The reader looks for the root
element and then for the first graph element in the root's namespace, gives
the graph's attributes their defaults and takes one child of the graph element
after the other: vertices, edges between vertices that were read before, and
data of the graph. The rest of the document is only checked to be well-formed.
A child that cannot be read changes nothing, and the children in front of it
stay in the graph.
-/

namespace GraphMarkup.Document

open GraphMarkup.Graph
open GraphMarkup.Markup
open GraphMarkup.Attributes
open GraphMarkup.Text
open GraphMarkup.Validation

/-- A graph that documents can be read onto. -/
class Target (G : Type) (V E A : outParam Type) where
  addVertex : V → G → G
  /-- Add an edge and tell whether it was taken, or why it cannot be. -/
  addEdge : E → G → Except Error Bool × G
  attributes : G → A
  setAttributes : A → G → G

instance {V E A : Type} [BEq V] [Hashable V] [Endpoints E V] :
    Target (AdjacencyGraph V E A) V E A where
  addVertex vertex graph := (graph.addVertex vertex).2
  addEdge edge graph :=
    let (taken, graph) := graph.addEdge edge
    (taken.mapError .graph, graph)
  attributes graph := graph.attributes
  setAttributes attributes graph := { graph with attributes := attributes }

/-- How vertices and edges are made from their ids. -/
structure Factories (V E : Type) where
  vertex : String → V
  /-- The edge with the given source, target and id. -/
  edge : V → V → String → E

/-- A child of a graph element. -/
inductive Child (V E : Type) where
  | node (id : String) (vertex : V)
  | edge (edge : E)
  | data (key text : String)
deriving Repr

/-- The vertices that were read, by id. -/
abbrev VertexTable (V : Type) :=
  List (String × V)

section

variable {V E A : Type}

/-- Read the data of an instance, unless its element is empty. -/
def readOwner {α : Type} (namespace? : Option Bytes) (codec : Codec α) (element : String)
    (isEmpty : Bool) (owner : α) (trace : Trace Resolved) :
    Except Error (α × Trace Resolved) :=
  let owner := codec.applyDefaults owner
  if isEmpty then .ok (owner, trace) else readData namespace? codec element owner trace

theorem readOwner_length_le {α : Type} {namespace? : Option Bytes} {codec : Codec α}
    {element : String} {isEmpty : Bool} {owner owner' : α} {trace rest : Trace Resolved}
    (read : readOwner namespace? codec element isEmpty owner trace = .ok (owner', rest)) :
    rest.length ≤ trace.length := by
  unfold readOwner at read
  split at read
  · cases read
    exact Nat.le_refl _
  · exact Nat.le_of_lt (readData_length_lt read)

/-- The vertex with an id. -/
def vertexOf (vertices : VertexTable V) (id : String) : Except Error V :=
  match vertices.lookup id with
  | some vertex => .ok vertex
  | none => .error (.vertexNotFound id)

/-- Read a node element. -/
def readNode (codecs : Codecs V E A) (factories : Factories V E) (namespace? : Option Bytes)
    (tag : Tag) (isEmpty : Bool) (trace : Trace Resolved) :
    Except Error (Child V E × Trace Resolved) := do
  let id ← requiredText tag ElementName.node AttributeName.id
  let (vertex, rest) ←
    readOwner namespace? codecs.vertex ElementName.node isEmpty (factories.vertex id) trace
  pure (.node id vertex, rest)

/-- Read an edge element. -/
def readEdge (codecs : Codecs V E A) (factories : Factories V E) (namespace? : Option Bytes)
    (vertices : VertexTable V) (tag : Tag) (isEmpty : Bool) (trace : Trace Resolved) :
    Except Error (Child V E × Trace Resolved) := do
  let id ← requiredText tag ElementName.edge AttributeName.id
  let sourceId ← requiredText tag ElementName.edge AttributeName.source
  let targetId ← requiredText tag ElementName.edge AttributeName.target
  let source ← vertexOf vertices sourceId
  let target ← vertexOf vertices targetId
  let (edge, rest) ←
    readOwner namespace? codecs.edge ElementName.edge isEmpty (factories.edge source target id)
      trace
  pure (.edge edge, rest)

/-- Read a data element of the graph. -/
def readGraphData (tag : Tag) (isEmpty : Bool) (trace : Trace Resolved) :
    Except Error (Child V E × Trace Resolved) := do
  let key ← requiredText tag ElementName.data AttributeName.key
  let (text, rest) ← elementText isEmpty trace
  pure (.data key text, rest)

/-- Read a child of the graph element, from behind its start tag. -/
def readChild (codecs : Codecs V E A) (factories : Factories V E) (namespace? : Option Bytes)
    (vertices : VertexTable V) (tag : Tag) (isEmpty : Bool) (trace : Trace Resolved) :
    Except Error (Child V E × Trace Resolved) :=
  match decodeUtf8 (localName tag.name) with
  | .error cause => .error (.encoding cause)
  | .ok name =>
      if name = ElementName.node then
        readNode codecs factories namespace? tag isEmpty trace
      else if name = ElementName.edge then
        readEdge codecs factories namespace? vertices tag isEmpty trace
      else if name = ElementName.data then readGraphData tag isEmpty trace
      else .error (.unexpectedElement name)

theorem readNode_length_le {codecs : Codecs V E A} {factories : Factories V E}
    {namespace? : Option Bytes} {tag : Tag} {isEmpty : Bool} {trace rest : Trace Resolved}
    {child : Child V E}
    (read : readNode codecs factories namespace? tag isEmpty trace = .ok (child, rest)) :
    rest.length ≤ trace.length := by
  simp only [readNode, bind, Except.bind] at read
  split at read
  · cases read
  · split at read
    · cases read
    · rename_i found
      cases read
      exact readOwner_length_le found

theorem readEdge_length_le {codecs : Codecs V E A} {factories : Factories V E}
    {namespace? : Option Bytes} {vertices : VertexTable V} {tag : Tag} {isEmpty : Bool}
    {trace rest : Trace Resolved} {child : Child V E}
    (read : readEdge codecs factories namespace? vertices tag isEmpty trace =
      .ok (child, rest)) :
    rest.length ≤ trace.length := by
  simp only [readEdge, bind, Except.bind] at read
  split at read
  · cases read
  split at read
  · cases read
  split at read
  · cases read
  split at read
  · cases read
  split at read
  · cases read
  split at read
  · cases read
  · rename_i found
    cases read
    exact readOwner_length_le found

theorem readGraphData_length_le {tag : Tag} {isEmpty : Bool} {trace rest : Trace Resolved}
    {child : Child V E} (read : readGraphData tag isEmpty trace = .ok (child, rest)) :
    rest.length ≤ trace.length := by
  simp only [readGraphData, bind, Except.bind] at read
  split at read
  · cases read
  · split at read
    · cases read
    · rename_i found
      cases read
      exact elementText_length_le found

theorem readChild_length_le {codecs : Codecs V E A} {factories : Factories V E}
    {namespace? : Option Bytes} {vertices : VertexTable V} {tag : Tag} {isEmpty : Bool}
    {trace rest : Trace Resolved} {child : Child V E}
    (read : readChild codecs factories namespace? vertices tag isEmpty trace =
      .ok (child, rest)) :
    rest.length ≤ trace.length := by
  unfold readChild at read
  split at read
  · cases read
  split at read
  · exact readNode_length_le read
  split at read
  · exact readEdge_length_le read
  split at read
  · exact readGraphData_length_le read
  · cases read

/-- A graph that is being filled. -/
structure Filling (G V : Type) where
  graph : G
  vertices : VertexTable V

variable {G : Type} [Target G V E A]

/-- Give the attributes of a graph their defaults. -/
def applyGraphDefaults (codec : Codec A) (graph : G) : G :=
  Target.setAttributes (codec.applyDefaults (Target.attributes graph)) graph

/-- Add a child to a graph. A vertex takes the place of an earlier one with its
id in the table. -/
def addChild (codecs : Codecs V E A) (child : Child V E) (filling : Filling G V) :
    Except Error Unit × Filling G V :=
  match child with
  | .node id vertex =>
      (.ok (), ⟨Target.addVertex vertex filling.graph, (id, vertex) :: filling.vertices⟩)
  | .edge edge =>
      let (taken, graph) := Target.addEdge edge filling.graph
      (taken.map fun _ => (), { filling with graph := graph })
  | .data key text =>
      match codecs.graph.read key text (Target.attributes filling.graph) with
      | .ok attributes =>
          (.ok (), { filling with graph := Target.setAttributes attributes filling.graph })
      | .error cause => (.error (.data cause), filling)

/-- Read the children of the graph element. They end with the element, or with
the input. -/
def readChildren (codecs : Codecs V E A) (factories : Factories V E)
    (namespace? : Option Bytes) (filling : Filling G V) (trace : Trace Resolved) :
    Except Error (Trace Resolved) × G :=
  match trace with
  | .ended => (.ok .ended, filling.graph)
  | .failed error _ _ => (.error (.markup error), filling.graph)
  | .item resolved _ rest =>
      match contentOf resolved with
      | .error error => (.error error, filling.graph)
      | .ok (.opening tag found? isEmpty) =>
          if found? = namespace? then
            match _read :
                readChild codecs factories namespace? filling.vertices tag isEmpty rest with
            | .error error => (.error error, filling.graph)
            | .ok (child, rest') =>
                match addChild codecs child filling with
                | (.error error, filling) => (.error error, filling.graph)
                | (.ok (), filling) => readChildren codecs factories namespace? filling rest'
          else if isEmpty then readChildren codecs factories namespace? filling rest
          else
            match _skipped : skip 0 rest with
            | .error error => (.error error, filling.graph)
            | .ok rest' => readChildren codecs factories namespace? filling rest'
      | .ok .closing => (.ok rest, filling.graph)
      | .ok (.text _) => readChildren codecs factories namespace? filling rest
      | .ok .other => readChildren codecs factories namespace? filling rest
termination_by trace.length
decreasing_by
  · have := readChild_length_le _read
    simp only [Trace.length]
    omega
  · simp [Trace.length]
  · have := skip_length_lt _skipped
    simp only [Trace.length]
    omega
  all_goals simp [Trace.length]

end

/-- Look for the root element; what is found is its namespace. -/
def findRoot : Trace Resolved → Except Error (Option Bytes × Trace Resolved)
  | .ended => .error .rootNotFound
  | .failed error _ _ => .error (.markup error)
  | .item resolved _ rest =>
      match contentOf resolved with
      | .error error => .error error
      | .ok (.opening tag namespace? isEmpty) =>
          if hasName tag ElementName.graphml then
            if isEmpty then .error .graphNotFound else .ok (namespace?, rest)
          else findRoot rest
      | .ok _ => findRoot rest

/-- Look for the graph element, at whatever depth; what is found is whether it
is empty. -/
def findGraph (namespace? : Option Bytes) :
    Trace Resolved → Except Error (Bool × Trace Resolved)
  | .ended => .error .graphNotFound
  | .failed error _ _ => .error (.markup error)
  | .item resolved _ rest =>
      match contentOf resolved with
      | .error error => .error error
      | .ok (.opening tag found? isEmpty) =>
          if found? = namespace? ∧ hasName tag ElementName.graph then .ok (isEmpty, rest)
          else findGraph namespace? rest
      | .ok _ => findGraph namespace? rest

/-- Read what is left of a document. -/
def drain : Trace Resolved → Except Error Unit
  | .ended => .ok ()
  | .failed error _ _ => .error (.markup error)
  | .item resolved _ rest =>
      match contentOf resolved with
      | .error error => .error error
      | .ok _ => drain rest

section

variable {V E A G : Type} [Target G V E A]

/-- Read the events of a document onto a graph. -/
def readTrace (codecs : Codecs V E A) (factories : Factories V E) (trace : Trace Resolved)
    (graph : G) : Except Error Unit × G :=
  match findRoot trace with
  | .error error => (.error error, graph)
  | .ok (namespace?, trace) =>
      match findGraph namespace? trace with
      | .error error => (.error error, graph)
      | .ok (isEmpty, trace) =>
          let graph := applyGraphDefaults codecs.graph graph
          if isEmpty then (drain trace, graph)
          else
            match readChildren codecs factories namespace? ⟨graph, []⟩ trace with
            | (.error error, graph) => (.error error, graph)
            | (.ok trace, graph) => (drain trace, graph)

/-- Read a document onto a graph. What comes back is the graph as far as it was
filled, and the error that stopped the reading, if any. -/
def read (type : GraphType V E A) (factories : Factories V E) (document : Bytes) (graph : G) :
    Except Error Unit × G :=
  match type.compile with
  | .error error => (.error (.configuration error), graph)
  | .ok codecs => readTrace codecs factories (Markup.read document) graph

/-- Check a document and read it if it is valid. -/
def readValidated (resolver : Schema.Resolver) (settings : Settings) (type : GraphType V E A)
    (factories : Factories V E) (document : Bytes) (graph : G) : Except Error Unit × G :=
  match validateWith resolver settings document with
  | .error error => (.error error, graph)
  | .ok () => read type factories document graph

end

end GraphMarkup.Document
