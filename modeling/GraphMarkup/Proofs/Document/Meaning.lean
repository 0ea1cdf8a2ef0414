import GraphMarkup.Document.Reader
import GraphMarkup.Proofs.Markup.Forest
import GraphMarkup.Proofs.Text.Utf8

/-!
# The meaning of a document

What a document says about a graph is defined here by recursion on its tree,
without regard to the order in which a reader comes across tags. The graph
element is the first one in the root's namespace. Its children in that
namespace are nodes, edges and data; those of other namespaces mean nothing,
and neither does anything in a node or an edge that is no data of its own.
-/

namespace GraphMarkup.Document

open GraphMarkup.Attributes
open GraphMarkup.Markup
open GraphMarkup.Text

/-- An element has a name in a namespace. -/
def IsNamed (namespace? : Option Bytes) (name : String) (head : Element) : Prop :=
  head.namespace? = namespace? ∧ head.name = name

instance (namespace? : Option Bytes) (name : String) (head : Element) :
    Decidable (IsNamed namespace? name head) :=
  inferInstanceAs (Decidable (_ ∧ _))

/-- The value of an attribute that an element must have. -/
def valueOf (head : Element) (element attributeName : String) : Except Error String :=
  match head.attribute? attributeName with
  | some value => .ok value
  | none => .error (.missingAttribute element attributeName)

/-- Set the attributes of an instance from the data among the children of its
element, in order. -/
def meaningOfData {α : Type} (namespace? : Option Bytes) (codec : Codec α) (owner : α) :
    List Node → Except Error α
  | [] => .ok owner
  | .leaf _ :: nodes => meaningOfData namespace? codec owner nodes
  | .element head children :: nodes =>
      if IsNamed namespace? ElementName.data head then do
        let key ← valueOf head ElementName.data AttributeName.key
        let owner ← (codec.read key (characterData children) owner).mapError .data
        meaningOfData namespace? codec owner nodes
      else meaningOfData namespace? codec owner nodes

section

variable {V E A : Type}

/-- What a child of the graph element says: a node needs an id, an edge an id
and two ends that are known, and data a key. An instance holds its defaults
before its own data are set. -/
def meaningOfChild (codecs : Codecs V E A) (factories : Factories V E)
    (namespace? : Option Bytes) (vertices : VertexTable V) (head : Element)
    (children : List Node) : Except Error (Child V E) :=
  if head.name = ElementName.node then do
    let id ← valueOf head ElementName.node AttributeName.id
    let vertex ← meaningOfData namespace? codecs.vertex
      (codecs.vertex.applyDefaults (factories.vertex id)) children
    pure (.node id vertex)
  else if head.name = ElementName.edge then do
    let id ← valueOf head ElementName.edge AttributeName.id
    let sourceId ← valueOf head ElementName.edge AttributeName.source
    let targetId ← valueOf head ElementName.edge AttributeName.target
    let source ← vertexOf vertices sourceId
    let target ← vertexOf vertices targetId
    let edge ← meaningOfData namespace? codecs.edge
      (codecs.edge.applyDefaults (factories.edge source target id)) children
    pure (.edge edge)
  else if head.name = ElementName.data then do
    let key ← valueOf head ElementName.data AttributeName.key
    pure (.data key (characterData children))
  else .error (.unexpectedElement head.name)

variable {G : Type} [Target G V E A]

/-- Add what the children of the graph element say, one after the other, up to
the first that cannot be added. -/
def meaningOfChildren (codecs : Codecs V E A) (factories : Factories V E)
    (namespace? : Option Bytes) (filling : Filling G V) :
    List Node → Except Error Unit × Filling G V
  | [] => (.ok (), filling)
  | .leaf _ :: nodes => meaningOfChildren codecs factories namespace? filling nodes
  | .element head children :: nodes =>
      if head.namespace? = namespace? then
        match meaningOfChild codecs factories namespace? filling.vertices head children with
        | .error error => (.error error, filling)
        | .ok child =>
            match addChild codecs child filling with
            | (.error error, filling) => (.error error, filling)
            | (.ok (), filling) => meaningOfChildren codecs factories namespace? filling nodes
      else meaningOfChildren codecs factories namespace? filling nodes

/-- The children of a node that is an element with a name in a namespace. -/
def contentIfNamed? (namespace? : Option Bytes) (name : String) : Node → Option (List Node)
  | .element head children => if IsNamed namespace? name head then some children else none
  | .leaf _ => none

/-- The content of the first graph element among some places. -/
def graphContent? (namespace? : Option Bytes) (places : List Place) : Option (List Node) :=
  places.findSome? fun place => contentIfNamed? namespace? ElementName.graph place.node

/-- What a document with the given root says, added to a graph. -/
def meaning (codecs : Codecs V E A) (factories : Factories V E) (root : Element)
    (children : List Node) (graph : G) : Except Error Unit × G :=
  match graphContent? root.namespace? (Forest.places [root] children) with
  | none => (.error .graphNotFound, graph)
  | some content =>
      let (result, filling) :=
        meaningOfChildren codecs factories root.namespace?
          ⟨applyGraphDefaults codecs.graph graph, []⟩ content
      (result, filling.graph)

end

/-! ## What means nothing -/

section

variable {α : Type} {namespace? : Option Bytes} {codec : Codec α}

/-- Data that stand one behind the other are read one after the other. -/
theorem meaningOfData_append (owner : α) (front back : List Node) :
    meaningOfData namespace? codec owner (front ++ back) =
      meaningOfData namespace? codec owner front >>= fun owner =>
        meaningOfData namespace? codec owner back := by
  induction front generalizing owner with
  | nil => rfl
  | cons node front ih =>
    cases node with
    | leaf event =>
      rw [List.cons_append, meaningOfData, meaningOfData]
      exact ih owner
    | element head children =>
      rw [List.cons_append, meaningOfData, meaningOfData]
      split
      · rw [bind_assoc]
        refine bind_congr fun key => ?_
        rw [bind_assoc]
        exact bind_congr fun owner => ih owner
      · exact ih owner

/-- Among other elements than data there is nothing to read. -/
theorem meaningOfData_of_unnamed {nodes : List Node}
    (unnamed : ∀ root ∈ Forest.roots nodes, ¬IsNamed namespace? ElementName.data root.1)
    (owner : α) : meaningOfData namespace? codec owner nodes = .ok owner := by
  induction nodes with
  | nil => rfl
  | cons node nodes ih =>
    cases node with
    | leaf event =>
      rw [Forest.roots_leaf_cons] at unnamed
      rw [meaningOfData]
      exact ih unnamed
    | element head children =>
      rw [Forest.roots_element_cons, List.forall_mem_cons] at unnamed
      rw [meaningOfData, if_neg unnamed.1]
      exact ih unnamed.2

end

section

variable {V E A : Type} {codecs : Codecs V E A} {factories : Factories V E}
  {namespace? : Option Bytes}

/-- A node and an edge mean what the data in them mean. -/
theorem meaningOfChild_congr {head : Element} {children children' : List Node}
    (owns : head.name = ElementName.node ∨ head.name = ElementName.edge)
    (same : ∀ {α : Type} (codec : Codec α) (owner : α),
      meaningOfData namespace? codec owner children =
        meaningOfData namespace? codec owner children')
    (vertices : VertexTable V) :
    meaningOfChild codecs factories namespace? vertices head children =
      meaningOfChild codecs factories namespace? vertices head children' := by
  rw [meaningOfChild, meaningOfChild]
  rcases owns with node | edge
  · rw [if_pos node, if_pos node]
    simp only [same]
  · have other : head.name ≠ ElementName.node := by
      rw [edge]
      decide
    rw [if_neg other, if_neg other, if_pos edge, if_pos edge]
    simp only [same]

variable {G : Type} [Target G V E A]

/-- Children of the graph element that stand one behind the other are added one after the
other, up to the first that cannot be added. -/
theorem meaningOfChildren_append (filling : Filling G V) (front back : List Node) :
    meaningOfChildren codecs factories namespace? filling (front ++ back) =
      match meaningOfChildren codecs factories namespace? filling front with
      | (.error error, filling) => (.error error, filling)
      | (.ok (), filling) => meaningOfChildren codecs factories namespace? filling back := by
  induction front generalizing filling with
  | nil => rfl
  | cons node front ih =>
    cases node with
    | leaf event =>
      rw [List.cons_append, meaningOfChildren, meaningOfChildren]
      exact ih filling
    | element head children =>
      rw [List.cons_append, meaningOfChildren, meaningOfChildren]
      split
      · cases meaningOfChild codecs factories namespace? filling.vertices head children with
        | error error => rfl
        | ok child =>
          dsimp only
          rcases addChild codecs child filling with ⟨result, extended⟩
          cases result with
          | error error => rfl
          | ok => exact ih extended
      · exact ih filling

/-- Elements of other namespaces add nothing. -/
theorem meaningOfChildren_of_foreign {nodes : List Node}
    (foreign : ∀ root ∈ Forest.roots nodes, root.1.namespace? ≠ namespace?)
    (filling : Filling G V) :
    meaningOfChildren codecs factories namespace? filling nodes = (.ok (), filling) := by
  induction nodes with
  | nil => rfl
  | cons node nodes ih =>
    cases node with
    | leaf event =>
      rw [Forest.roots_leaf_cons] at foreign
      rw [meaningOfChildren]
      exact ih foreign
    | element head children =>
      rw [Forest.roots_element_cons, List.forall_mem_cons] at foreign
      rw [meaningOfChildren, if_neg foreign.1]
      exact ih foreign.2

/-- The first element of the namespace that is no node, no edge and no data ends the reading,
and what stands behind it adds nothing. -/
theorem meaningOfChildren_of_unexpected {name : String}
    (unexpected : name ∉ [ElementName.node, ElementName.edge, ElementName.data])
    {nodes : List Node} (named : ∀ root ∈ Forest.roots nodes, IsNamed namespace? name root.1)
    (present : Forest.roots nodes ≠ []) (filling : Filling G V) (rest : List Node) :
    meaningOfChildren codecs factories namespace? filling (nodes ++ rest) =
      (.error (.unexpectedElement name), filling) := by
  induction nodes with
  | nil => exact absurd rfl present
  | cons node nodes ih =>
    cases node with
    | leaf event =>
      rw [Forest.roots_leaf_cons] at named present
      rw [List.cons_append, meaningOfChildren]
      exact ih named present
    | element head children =>
      rw [Forest.roots_element_cons, List.forall_mem_cons] at named
      obtain ⟨inNamespace, rfl⟩ := named.1
      simp only [List.mem_cons, List.not_mem_nil, or_false, not_or] at unexpected
      obtain ⟨noNode, noEdge, noData⟩ := unexpected
      rw [List.cons_append, meaningOfChildren, if_pos inNamespace, meaningOfChild, if_neg noNode,
        if_neg noEdge, if_neg noData]
end

end GraphMarkup.Document
