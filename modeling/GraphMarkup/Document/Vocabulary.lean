import GraphMarkup.Value.Kind

/-!
# Vocabulary

The names that documents are made of: the namespace, the elements and their
attributes, and the words that some attributes take.
-/

namespace GraphMarkup.Document

/-- The namespace of graph documents. -/
def namespaceName : String :=
  "http://graphml.graphdrawing.org/xmlns"

namespace ElementName

/-- The root of a document. -/
def graphml : String := "graphml"

/-- The declaration of an attribute. -/
def key : String := "key"

/-- The default of an attribute, inside its declaration. -/
def default : String := "default"

/-- A graph. -/
def graph : String := "graph"

/-- A vertex. -/
def node : String := "node"

/-- An edge. -/
def edge : String := "edge"

/-- The value of an attribute, inside its owner. -/
def data : String := "data"

end ElementName

namespace AttributeName

/-- The id of a key, a graph, a node or an edge. -/
def id : String := "id"

/-- The id of the node at which an edge begins. -/
def source : String := "source"

/-- The id of the node at which an edge ends. -/
def target : String := "target"

/-- The id of the key that a value belongs to. -/
def key : String := "key"

/-- The elements that a key is declared for. -/
def owner : String := "for"

/-- The name of the attribute that a key declares. -/
def name : String := "attr.name"

/-- The type of the attribute that a key declares. -/
def valueType : String := "attr.type"

/-- The direction of the edges of a graph. -/
def edgeDefault : String := "edgedefault"

/-- The number of nodes in a graph. -/
def nodeCount : String := "parse.nodes"

/-- The number of edges in a graph. -/
def edgeCount : String := "parse.edges"

/-- The order of nodes and edges in a graph. -/
def order : String := "parse.order"

/-- The pattern of the ids of nodes. -/
def nodeIds : String := "parse.nodeids"

/-- The pattern of the ids of edges. -/
def edgeIds : String := "parse.edgeids"

end AttributeName

/-- Nodes are listed before edges. -/
def nodesFirst : String :=
  "nodesfirst"

/-- Ids follow no pattern. -/
def freeIds : String :=
  "free"

/-- What an attribute is declared for. -/
inductive KeyTarget where
  | graph
  | node
  | edge
deriving DecidableEq, Repr

namespace KeyTarget

/-- All targets. -/
def values : List KeyTarget :=
  [.graph, .node, .edge]

/-- The word for a target. -/
def name : KeyTarget → String
  | .graph => "graph"
  | .node => "node"
  | .edge => "edge"

/-- The target with a word. -/
def ofName? (word : String) : Option KeyTarget :=
  values.find? (·.name = word)

end KeyTarget

/-- Whether edges have a direction unless they say otherwise. -/
inductive EdgeDefault where
  | directed
  | undirected
deriving DecidableEq, Repr

namespace EdgeDefault

/-- The word for an edge default. -/
def name : EdgeDefault → String
  | .directed => "directed"
  | .undirected => "undirected"

/-- The edge default with a word. -/
def ofName? (word : String) : Option EdgeDefault :=
  [directed, undirected].find? (·.name = word)

/-- The edge default of a graph. -/
def ofDirected (directed : Bool) : EdgeDefault :=
  if directed then .directed else .undirected

end EdgeDefault

end GraphMarkup.Document
