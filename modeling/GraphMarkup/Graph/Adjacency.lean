import GraphMarkup.Graph.Listing
import Std.Data.HashMap

/-!
# Adjacency graphs

An adjacency graph keeps its vertices and edges in the order in which they
were added, an index from vertices to their positions, and for every vertex
the edges that leave it. Vertices are compared by value, so an edge names its
ends by holding them. In an undirected graph an edge leaves both of its ends.
-/

namespace GraphMarkup.Graph

/-- The position of a vertex. -/
structure VertexId where
  index : Nat
deriving DecidableEq, Repr

/-- The position of an edge. -/
structure EdgeId where
  index : Nat
deriving DecidableEq, Repr

/-- A description of a vertex position. -/
def VertexId.description (id : VertexId) : String :=
  "VertexId(" ++ toString id.index ++ ")"

/-- A description of an edge position. -/
def EdgeId.description (id : EdgeId) : String :=
  "EdgeId(" ++ toString id.index ++ ")"

instance : LT VertexId where
  lt a b := a.index < b.index

instance (a b : VertexId) : Decidable (a < b) :=
  inferInstanceAs (Decidable (a.index < b.index))

instance : LT EdgeId where
  lt a b := a.index < b.index

instance (a b : EdgeId) : Decidable (a < b) :=
  inferInstanceAs (Decidable (a.index < b.index))

/-- A graph with an index of its vertices and the edges leaving each of them. -/
structure AdjacencyGraph (V E A : Type) [BEq V] [Hashable V] where
  vertices : Array V
  index : Std.HashMap V VertexId
  edges : Array E
  /-- The edges that leave a vertex, by the position of the vertex. -/
  outEdges : Array (Array EdgeId)
  directed : Bool
  allowsParallelEdges : Bool
  attributes : A

/-- Why an edge cannot be added. -/
inductive EdgeError where
  | absentEndpoint
deriving DecidableEq, Repr

/-- The wording of an edge error. -/
def EdgeError.message : EdgeError → String
  | .absentEndpoint => "edge endpoint is not a vertex of the graph"

namespace AdjacencyGraph

variable {V E A : Type} [BEq V] [Hashable V]

/-- The graph without vertices. -/
def empty (directed allowsParallelEdges : Bool) (attributes : A) : AdjacencyGraph V E A :=
  ⟨#[], ∅, #[], #[], directed, allowsParallelEdges, attributes⟩

/-- Whether the graph has no vertices. -/
def isEmpty (graph : AdjacencyGraph V E A) : Bool :=
  graph.vertices.isEmpty

/-- The graph as it is enumerated. -/
def listing (graph : AdjacencyGraph V E A) : Listing V E A where
  directed := graph.directed
  attributes := graph.attributes
  vertices := graph.vertices.toList
  edges := graph.edges.toList

/-- The position of a vertex. -/
def vertexId? (graph : AdjacencyGraph V E A) (vertex : V) : Option VertexId :=
  graph.index[vertex]?

/-- Whether a vertex belongs to the graph. -/
def containsVertex (graph : AdjacencyGraph V E A) (vertex : V) : Bool :=
  graph.index.contains vertex

/-- The vertex at a position. -/
def vertex? (graph : AdjacencyGraph V E A) (id : VertexId) : Option V :=
  graph.vertices[id.index]?

/-- The edge at a position. -/
def edge? (graph : AdjacencyGraph V E A) (id : EdgeId) : Option E :=
  graph.edges[id.index]?

/-- The positions of the edges that leave the vertex at a position. -/
def outEdgeIds (graph : AdjacencyGraph V E A) (id : VertexId) : Array EdgeId :=
  graph.outEdges.getD id.index #[]

/-- Find a vertex, or add it behind the others. -/
def insertVertex (graph : AdjacencyGraph V E A) (vertex : V) :
    VertexId × AdjacencyGraph V E A :=
  match graph.index[vertex]? with
  | some id => (id, graph)
  | none =>
      let id := ⟨graph.vertices.size⟩
      (id, { graph with
        vertices := graph.vertices.push vertex
        index := graph.index.insert vertex id
        outEdges := graph.outEdges.push #[] })

/-- Add a vertex and tell whether it is new. -/
def addVertex (graph : AdjacencyGraph V E A) (vertex : V) : Bool × AdjacencyGraph V E A :=
  let (_, extended) := graph.insertVertex vertex
  (graph.vertices.size < extended.vertices.size, extended)

variable [Endpoints E V]

/-- Whether an edge joins the vertices at two positions, in an undirected graph
in either direction. -/
def joins (graph : AdjacencyGraph V E A) (source target : VertexId) (id : EdgeId) : Bool :=
  match graph.edge? id with
  | none => false
  | some edge =>
      match graph.vertexId? (Endpoints.source edge), graph.vertexId? (Endpoints.target edge) with
      | some s, some t =>
          (s == source && t == target) || (!graph.directed && s == target && t == source)
      | _, _ => false

/-- Whether some edge joins the vertices at two positions. -/
def connects (graph : AdjacencyGraph V E A) (source target : VertexId) : Bool :=
  (graph.outEdgeIds source).any (graph.joins source target)

/-- Whether some edge joins two vertices. -/
def containsEdge (graph : AdjacencyGraph V E A) (source target : V) : Bool :=
  match graph.vertexId? source, graph.vertexId? target with
  | some s, some t => graph.connects s t
  | _, _ => false

/-- The edges that leave a vertex, in the order in which they were added. -/
def outEdgesOf (graph : AdjacencyGraph V E A) (vertex : V) : List E :=
  match graph.vertexId? vertex with
  | none => []
  | some id => (graph.outEdgeIds id).toList.filterMap graph.edge?

/-- The number of edges that leave a vertex. -/
def outDegree (graph : AdjacencyGraph V E A) (vertex : V) : Nat :=
  match graph.vertexId? vertex with
  | none => 0
  | some id => (graph.outEdgeIds id).size

/-- Add an edge between the vertices at two positions, unless it is parallel to
another one and the graph does not allow that. -/
def pushEdge (graph : AdjacencyGraph V E A) (source target : VertexId) (edge : E) :
    Option EdgeId × AdjacencyGraph V E A :=
  if !graph.allowsParallelEdges && graph.connects source target then (none, graph)
  else
    let id : EdgeId := ⟨graph.edges.size⟩
    let outEdges := graph.outEdges.modify source.index (·.push id)
    (some id, { graph with
      edges := graph.edges.push edge
      outEdges :=
        if !graph.directed && source != target then outEdges.modify target.index (·.push id)
        else outEdges })

/-- Add an edge and those of its ends that are not in the graph yet. -/
def addVerticesAndEdge (graph : AdjacencyGraph V E A) (edge : E) :
    Option EdgeId × AdjacencyGraph V E A :=
  let (source, graph) := graph.insertVertex (Endpoints.source edge)
  let (target, graph) := graph.insertVertex (Endpoints.target edge)
  graph.pushEdge source target edge

/-- Add an edge between vertices of the graph and tell whether it was taken. -/
def addEdge (graph : AdjacencyGraph V E A) (edge : E) :
    Except EdgeError Bool × AdjacencyGraph V E A :=
  match graph.vertexId? (Endpoints.source edge), graph.vertexId? (Endpoints.target edge) with
  | some source, some target =>
      let (id?, extended) := graph.pushEdge source target edge
      (.ok id?.isSome, extended)
  | _, _ => (.error .absentEndpoint, graph)

end AdjacencyGraph

end GraphMarkup.Graph
