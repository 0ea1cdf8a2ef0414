/-!
# Edges

An edge ends in two vertices. Anything that tells its ends can be an edge;
the two types here hold nothing else, or a tag besides.
-/

namespace GraphMarkup.Graph

/-- What has two ends. -/
class Endpoints (E : Type) (V : outParam Type) where
  source : E → V
  target : E → V

/-- An edge that is determined by its ends. -/
structure Edge (V : Type) where
  source : V
  target : V
deriving DecidableEq, Repr

namespace Edge

/-- Whether both ends are the same vertex. -/
def isSelfEdge {V : Type} [BEq V] (edge : Edge V) : Bool :=
  edge.source == edge.target

end Edge

instance {V : Type} : Endpoints (Edge V) V where
  source := Edge.source
  target := Edge.target

/-- An edge with a tag. -/
structure TaggedEdge (V T : Type) where
  source : V
  target : V
  tag : T
deriving DecidableEq, Repr

instance {V T : Type} : Endpoints (TaggedEdge V T) V where
  source := TaggedEdge.source
  target := TaggedEdge.target

/-- The text of an edge, given the texts of vertices: both ends with an arrow
between them. -/
def arrowText {E V : Type} [Endpoints E V] (vertexText : V → String) (edge : E) : String :=
  vertexText (Endpoints.source edge) ++ "->" ++ vertexText (Endpoints.target edge)

end GraphMarkup.Graph
