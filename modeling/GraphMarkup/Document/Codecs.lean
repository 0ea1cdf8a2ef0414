import GraphMarkup.Error

/-!
# Types of graphs

The three parts of a graph that have attributes are its vertices, its edges
and the graph itself. Their declarations are checked together before a
document is written or read.
-/

namespace GraphMarkup.Document

open GraphMarkup.Attributes

/-- The declarations of a type of graphs. -/
structure GraphType (V E A : Type) where
  vertex : Declaration V
  edge : Declaration E
  graph : Declaration A

/-- The codecs of a type of graphs. -/
structure Codecs (V E A : Type) where
  graph : Codec A
  vertex : Codec V
  edge : Codec E

/-- Check the declarations, those of the graph first, then those of vertices,
then those of edges. -/
def GraphType.compile {V E A : Type} (type : GraphType V E A) :
    Except ConfigurationError (Codecs V E A) := do
  let graph ← type.graph.compile
  let vertex ← type.vertex.compile
  let edge ← type.edge.compile
  pure ⟨graph, vertex, edge⟩

end GraphMarkup.Document
