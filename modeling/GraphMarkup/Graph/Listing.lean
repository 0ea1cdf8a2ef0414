import GraphMarkup.Graph.Edge

/-!
# Listings of graphs

What a document says about a graph is its direction, its attributes and its
vertices and edges in order. A listing is just that; it need not be free of
repeated vertices, and its edges may end anywhere. The counts are what the
graph says of itself.
-/

namespace GraphMarkup.Graph

/-- A graph as it is enumerated. -/
structure Listing (V E A : Type) where
  directed : Bool
  attributes : A
  vertices : List V
  edges : List E
  vertexCount : Nat := vertices.length
  edgeCount : Nat := edges.length
deriving Repr

end GraphMarkup.Graph
