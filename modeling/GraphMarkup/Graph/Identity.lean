import GraphMarkup.Graph.Listing
import Std.Data.HashMap

/-!
# Identities

In a document vertices and edges go by ids. A vertex id is a function of the
vertex, an edge id may also depend on the place of the edge among the others.
The identities here number what is listed. Vertices are found by value, so the
ends of an edge, which the edge holds itself, go by the ids of listed vertices.
-/

namespace GraphMarkup.Graph

/-- The positions of listed vertices. Of equal vertices the first one counts. -/
def vertexPositions {V E A : Type} [BEq V] [Hashable V] (listing : Listing V E A) :
    Std.HashMap V Nat :=
  listing.vertices.zipIdx.foldl
    (fun positions entry => positions.insertIfNew entry.1 entry.2) ∅

/-- The id of a vertex: its position in digits, and nothing if it has none. -/
def positionIdentity {V : Type} [BEq V] [Hashable V] (positions : Std.HashMap V Nat)
    (vertex : V) : String :=
  match positions[vertex]? with
  | some position => toString position
  | none => ""

/-- The first position at which a vertex is listed, in digits; nothing for a
vertex that is not listed. -/
def vertexIndexIdentity {V E A : Type} [BEq V] [Hashable V] (listing : Listing V E A)
    (vertex : V) : String :=
  positionIdentity (vertexPositions listing) vertex

/-- The position of an edge, in digits; nothing for an edge that is not
listed. -/
def edgeIndexIdentity : Option Nat → String
  | some position => toString position
  | none => ""

/-- Ids for the vertices and edges of a graph. -/
structure Identities (V E : Type) where
  vertex : V → String
  /-- The id of the edge that is listed at a position. -/
  edge : Nat → E → String

/-- The identities that number vertices and edges. -/
def Identities.byIndex {V E A : Type} [BEq V] [Hashable V] (listing : Listing V E A) :
    Identities V E :=
  let positions := vertexPositions listing
  { vertex := positionIdentity positions
    edge := fun position _ => edgeIndexIdentity (some position) }

end GraphMarkup.Graph
