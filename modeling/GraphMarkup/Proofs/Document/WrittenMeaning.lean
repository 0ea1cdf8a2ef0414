import GraphMarkup.Proofs.Attributes.Fields
import GraphMarkup.Proofs.Document.Outlines
import GraphMarkup.Proofs.Document.ReadingGraph

/-!
# The meaning of written documents

In the tree of a written document the text between elements means nothing, and the
graph element is the one behind the declarations of attributes. What the document
means is therefore what its data, nodes and edges add to a graph, in their order.
-/

namespace GraphMarkup.Document

open GraphMarkup.Attributes
open GraphMarkup.Graph
open GraphMarkup.Markup
open GraphMarkup.Text

/-! ## Text between elements -/

theorem nodes_append (resolution : Resolution) (indent? : Option Nat) (depth : Nat)
    (front back : List Outline) :
    Outlines.nodes resolution indent? depth (front ++ back) =
      Outlines.nodes resolution indent? depth front ++
        Outlines.nodes resolution indent? depth back := by
  induction front with
  | nil => rfl
  | cons outline front ih =>
    rw [List.cons_append, Outlines.nodes, ih, Outlines.nodes, List.append_assoc, List.cons_append]

/-- The namespace that the elements of a written document are in. -/
def writtenNamespace : Bytes :=
  encodeUtf8 (escape namespaceName)

/-- What the names of these elements resolve to. -/
def written : Resolution :=
  .bound writtenNamespace

/-- Text between elements is no element. -/
theorem breakNodes_cases (indent? : Option Nat) (depth : Nat) :
    breakNodes indent? depth = [] ∨
      breakNodes indent? depth = [.leaf (.text (encodeUtf8 (breakText indent? depth)))] := by
  rw [breakNodes, textNodes]
  split
  · exact Or.inl rfl
  · exact Or.inr rfl

section

variable {V E A : Type} {α : Type}

theorem meaningOfData_breakNodes (namespace? : Option Bytes) (codec : Codec α) (owner : α)
    (indent? : Option Nat) (depth : Nat) (nodes : List Node) :
    meaningOfData namespace? codec owner (breakNodes indent? depth ++ nodes) =
      meaningOfData namespace? codec owner nodes := by
  rcases breakNodes_cases indent? depth with none | some
  · rw [none, List.nil_append]
  · rw [some, List.singleton_append, meaningOfData]

theorem graphContent?_breakNodes (namespace? : Option Bytes) (ancestors : List Element)
    (indent? : Option Nat) (depth : Nat) (nodes : List Node) :
    graphContent? namespace? (Forest.places ancestors (breakNodes indent? depth ++ nodes)) =
      graphContent? namespace? (Forest.places ancestors nodes) := by
  rcases breakNodes_cases indent? depth with none | some
  · rw [none, List.nil_append]
  · rw [some, List.singleton_append, graphContent?_leaf_cons]

theorem meaningOfChildren_breakNodes {G : Type} [Target G V E A] (codecs : Codecs V E A)
    (factories : Factories V E) (namespace? : Option Bytes) (filling : Filling G V)
    (indent? : Option Nat) (depth : Nat) (nodes : List Node) :
    meaningOfChildren codecs factories namespace? filling (breakNodes indent? depth ++ nodes) =
      meaningOfChildren codecs factories namespace? filling nodes := by
  rcases breakNodes_cases indent? depth with none | some
  · rw [none, List.nil_append]
  · rw [some, List.singleton_append, meaningOfChildren]

/-! ## Data -/

/-- A written element has the attributes of its heading. -/
theorem valueOf_element {heading : Heading} {key value : String} (plain : IsPlain key)
    (given : heading.attributes.lookup key = some value) (element : String) :
    valueOf (heading.element written) element key = .ok value := by
  rw [valueOf, heading.attribute?_element written plain, given]

/-- The heading of a piece of data names its key. -/
theorem valueOf_dataHeading (key element : String) :
    valueOf ((dataHeading key).element written) element AttributeName.key = .ok key :=
  valueOf_element (by decide) rfl element

/-- The heading of an edge gives its id and its ends. -/
theorem valueOf_edgeHeading (id source target : String) :
    valueOf ((edgeHeading id source target).element written) ElementName.edge AttributeName.id =
        .ok id ∧
      valueOf ((edgeHeading id source target).element written) ElementName.edge
        AttributeName.source = .ok source ∧
      valueOf ((edgeHeading id source target).element written) ElementName.edge
        AttributeName.target = .ok target :=
  ⟨valueOf_element (by decide) rfl _, valueOf_element (by decide) rfl _,
    valueOf_element (by decide) rfl _⟩

/-- Written data are read in their order. -/
theorem meaningOfData_nodes (codec : Codec α) (indent? : Option Nat) (depth last : Nat)
    (entries : List (String × String)) (owner : α) :
    meaningOfData (some writtenNamespace) codec owner
        (Outlines.nodes written indent? depth (entries.map dataOutline) ++
          breakNodes indent? last) =
      (codec.readEntries entries owner).mapError .data := by
  induction entries generalizing owner with
  | nil =>
    have behind := meaningOfData_breakNodes (some writtenNamespace) codec owner
      indent? last []
    rw [List.append_nil] at behind
    exact behind
  | cons entry entries ih =>
    have named : IsNamed (some writtenNamespace) ElementName.data
        ((dataHeading entry.1).element written) :=
      ⟨rfl, Heading.name_element _ _⟩
    rw [List.map_cons, Outlines.nodes, List.append_assoc, List.cons_append,
      meaningOfData_breakNodes, dataOutline, Outline.node, meaningOfData, if_pos named,
      valueOf_dataHeading, characterData_textNodes, Codec.readEntries, List.foldlM_cons]
    cases read : codec.read entry.1 entry.2 owner with
    | error cause => simp only [bind, Except.bind, read, mapError_error]
    | ok middle =>
      simp only [bind, Except.bind, read, mapError_ok]
      exact ih middle

/-! ## The graph element -/

theorem graphContent?_nil (ancestors : List Element) :
    graphContent? (some writtenNamespace) (Forest.places ancestors []) = none :=
  rfl

/-- An element of another name that holds no graph element is passed over. -/
theorem graphContent?_element_of_ne (ancestors : List Element) {heading : Heading}
    (other : heading.name ≠ ElementName.graph) {children : List Node}
    (inside : graphContent? (some writtenNamespace)
      (Forest.places (heading.element written :: ancestors) children) = none)
    (nodes : List Node) :
    graphContent? (some writtenNamespace)
        (Forest.places ancestors (.element (heading.element written) children :: nodes)) =
      graphContent? (some writtenNamespace) (Forest.places ancestors nodes) := by
  have unnamed : ¬IsNamed (some writtenNamespace) ElementName.graph (heading.element written) := by
    intro named
    exact other ((heading.name_element written).symm.trans named.2)
  rw [graphContent?_element_cons, if_neg unnamed, inside, Option.none_or]

theorem graphContent?_textNodes (ancestors : List Element) (text : String) :
    graphContent? (some writtenNamespace) (Forest.places ancestors (textNodes text)) = none := by
  rw [textNodes]
  split
  · rfl
  · rfl

/-- There is no graph element in the declaration of an attribute. -/
theorem graphContent?_defaultOutlines (ancestors : List Element) (indent? : Option Nat)
    (depth last : Nat) (property : Property α) :
    graphContent? (some writtenNamespace)
        (Forest.places ancestors
          (Outlines.nodes written indent? depth (defaultOutlines property) ++
            breakNodes indent? last)) = none := by
  have behind := graphContent?_breakNodes (some writtenNamespace) ancestors indent? last []
  rw [List.append_nil, graphContent?_nil] at behind
  rw [defaultOutlines]
  cases property.defaultText? with
  | none => exact behind
  | some text =>
    rw [Outlines.nodes, Outlines.nodes, List.append_assoc, graphContent?_breakNodes, Outline.node,
      List.singleton_append,
      graphContent?_element_of_ne ancestors (by decide) (graphContent?_textNodes _ _)]
    exact behind

/-- The declarations of attributes stand in front of the graph element. -/
theorem graphContent?_keyOutlines (ancestors : List Element) (indent? : Option Nat)
    (depth : Nat) (target : KeyTarget) (codec : Codec α) (nodes : List Node) :
    graphContent? (some writtenNamespace)
        (Forest.places ancestors
          (Outlines.nodes written indent? depth (keyOutlines target codec) ++ nodes)) =
      graphContent? (some writtenNamespace) (Forest.places ancestors nodes) := by
  rw [keyOutlines]
  induction codec.properties with
  | nil => rfl
  | cons property properties ih =>
    have other : (keyHeading target property).name ≠ ElementName.graph :=
      (by decide : ElementName.key ≠ ElementName.graph)
    rw [List.map_cons, Outlines.nodes, List.append_assoc, List.cons_append,
      graphContent?_breakNodes, keyOutline, Outline.node,
      graphContent?_element_of_ne ancestors other (graphContent?_defaultOutlines _ _ _ _ _), ih]

/-- The graph element of a written document is the one behind the declarations. -/
theorem graphContent?_behindKeys (codecs : Codecs V E A) (settings : WriterSettings)
    (listing : Listing V E A) (ancestors : List Element) (indent? : Option Nat) (depth : Nat)
    (content nodes : List Node) :
    graphContent? (some writtenNamespace)
        (Forest.places ancestors
          (Outlines.nodes written indent? depth (declarationOutlines codecs) ++
            (breakNodes indent? depth ++
              .element ((graphHeading settings listing).element written) content :: nodes))) =
      some content := by
  have named : IsNamed (some writtenNamespace) ElementName.graph
      ((graphHeading settings listing).element written) :=
    ⟨rfl, Heading.name_element _ _⟩
  rw [declarationOutlines, nodes_append, nodes_append]
  simp only [List.append_assoc, graphContent?_keyOutlines]
  rw [graphContent?_breakNodes, graphContent?_element_cons, if_pos named]

end

/-! ## Documents with any content -/

section

variable {V E A : Type}

/-- The items of a document whose graph element has the given content. -/
def graphItems (codecs : Codecs V E A) (settings : WriterSettings) (listing : Listing V E A)
    (content : List Item) : List Item :=
  rootItems settings.declaration ElementName.graphml namespaceName
    (Outlines.items (declarationOutlines codecs) ++
      (graphHeading settings listing).opening ::
        (content ++ [(graphHeading settings listing).closing]))

/-- The items of an outlined document. -/
theorem documentItems_outlines [Endpoints E V] (codecs : Codecs V E A)
    (settings : WriterSettings) (identities : Identities V E) (listing : Listing V E A) :
    documentItems settings.declaration ElementName.graphml namespaceName
        (outlines codecs settings identities listing) =
      graphItems codecs settings listing
        (Outlines.items (graphOutlines codecs identities listing)) := by
  have split : outlines codecs settings identities listing = declarationOutlines codecs ++
      [.branch (graphHeading settings listing) (graphOutlines codecs identities listing)] := rfl
  rw [documentItems, split, items_append, graphItems, Outlines.items, Outlines.items,
    Outline.items, List.append_nil]

/-- A document means what the content of its graph element fills in, whatever its reader
expects of it. -/
theorem readTrace_graphItems {V' E' A' G : Type} [Target G V' E' A'] (reader : Codecs V' E' A')
    (factories : Factories V' E') (codecs : Codecs V E A) (settings : WriterSettings)
    (listing : Listing V E A) {content : List Item} {nodes : List Node}
    (wellFormed : Forest.WellFormed nodes)
    (inside : ReadsBack (rootScope namespaceName) settings.indent? 2 content nodes) (graph : G) :
    readTrace reader factories
        (Markup.read (rendered settings.indent? .initial
          (graphItems codecs settings listing content))) graph =
      (meaningOfChildren reader factories (some writtenNamespace)
        ⟨applyGraphDefaults reader.graph graph, []⟩
        (nodes ++ breakNodes settings.indent? 1)).map id Filling.graph := by
  have plain : IsPlain ElementName.graphml := by
    decide
  have bound : namespaceName ≠ "" := by
    decide
  have resolves : (rootScope namespaceName).resolve [] = written := resolve_rootScope bound
  have whole := (Outlines.readsBack (rootScope namespaceName) settings.indent? 1
    (declarationOutlines codecs)).append (inside.branch (graphHeading settings listing))
  rw [resolves] at whole
  have describes := describes_rootItems plain bound settings.declaration whole
  have inNamespace : (documentRoot ElementName.graphml namespaceName).namespace? =
      some writtenNamespace := rfl
  rw [graphItems, readTrace_eq_meaning reader factories describes ?wellFormed
    (roots_rootNodes _ _ _ _ _) (name_documentRoot plain namespaceName), meaning, inNamespace,
    List.append_assoc, List.append_assoc, List.singleton_append, graphContent?_behindKeys]
  case wellFormed =>
    apply wellFormed_rootNodes plain
    simp only [Forest.wellFormed_append]
    exact ⟨⟨Outlines.wellFormed_nodes _ 1, wellFormed_breakNodes _ 1,
      ⟨Heading.wellFormed_element _, Forest.wellFormed_append.mpr
        ⟨wellFormed, wellFormed_breakNodes _ 1⟩⟩, trivial⟩, wellFormed_breakNodes _ 0⟩
  rfl

end

/-! ## Filling a graph -/

section

variable {V E A G : Type} [Target G V E A] (codecs : Codecs V E A) (factories : Factories V E)
  (indent? : Option Nat)

/-- The children of a written graph element turn one filling of a graph into another. -/
def Fills (outlines : List Outline) (before after : Filling G V) : Prop :=
  ∀ nodes, meaningOfChildren codecs factories (some writtenNamespace) before
      (Outlines.nodes written indent? 2 outlines ++ nodes) =
    meaningOfChildren codecs factories (some writtenNamespace) after nodes

variable {codecs factories indent?}

theorem Fills.nil (filling : Filling G V) : Fills codecs factories indent? [] filling filling :=
  fun _ => rfl

theorem Fills.append {front back : List Outline} {before middle after : Filling G V}
    (first : Fills codecs factories indent? front before middle)
    (second : Fills codecs factories indent? back middle after) :
    Fills codecs factories indent? (front ++ back) before after := by
  intro nodes
  rw [nodes_append, List.append_assoc, first, second]

theorem Fills.cons {outline : Outline} {outlines : List Outline} {before middle after : Filling G V}
    (first : Fills codecs factories indent? [outline] before middle)
    (second : Fills codecs factories indent? outlines middle after) :
    Fills codecs factories indent? (outline :: outlines) before after :=
  first.append second

/-- A child that means something and can be added fills the graph with it. -/
theorem fills_of_meaningOfChild {outline : Outline} {heading : Heading} {content : List Node}
    (node : outline.node written indent? 2 = .element (heading.element written) content)
    {before after : Filling G V} {child : Child V E}
    (means : meaningOfChild codecs factories (some writtenNamespace) before.vertices
      (heading.element written) content = .ok child)
    (adds : addChild codecs child before = (.ok (), after)) :
    Fills codecs factories indent? [outline] before after := by
  intro nodes
  have inNamespace : (heading.element written).namespace? = some writtenNamespace := rfl
  rw [Outlines.nodes, Outlines.nodes, List.append_assoc, List.singleton_append,
    meaningOfChildren_breakNodes, node, meaningOfChildren, if_pos inNamespace, means]
  dsimp only
  rw [adds]

/-- A piece of data sets an attribute of the graph. -/
theorem fills_data {entry : String × String} {before : Filling G V} {attributes : A}
    (read : codecs.graph.read entry.1 entry.2 (Target.attributes before.graph) =
      .ok attributes) :
    Fills codecs factories indent? [dataOutline entry] before
      { before with graph := Target.setAttributes attributes before.graph } := by
  have named : ((dataHeading entry.1).element written).name = ElementName.data :=
    Heading.name_element _ _
  apply fills_of_meaningOfChild rfl
  · rw [meaningOfChild, named, if_neg (by decide), if_neg (by decide), if_pos rfl,
      valueOf_dataHeading, characterData_textNodes]
    rfl
  · rw [addChild, read]

/-- A node adds a vertex. -/
theorem fills_node {identities : Identities V E} {vertex copy : V} {before : Filling G V}
    (read : codecs.vertex.readEntries (codecs.vertex.write vertex)
      (codecs.vertex.applyDefaults (factories.vertex (identities.vertex vertex))) = .ok copy) :
    Fills codecs factories indent? [nodeOutline codecs identities vertex] before
      ⟨Target.addVertex copy before.graph,
        (identities.vertex vertex, copy) :: before.vertices⟩ := by
  have named : ((nodeHeading (identities.vertex vertex)).element written).name =
      ElementName.node :=
    Heading.name_element _ _
  have id : valueOf ((nodeHeading (identities.vertex vertex)).element written) ElementName.node
      AttributeName.id = .ok (identities.vertex vertex) :=
    valueOf_element (by decide) rfl _
  have means : meaningOfChild codecs factories (some writtenNamespace) before.vertices
      ((nodeHeading (identities.vertex vertex)).element written)
      (Outlines.nodes written indent? 3 (dataOutlines codecs.vertex vertex) ++
        breakNodes indent? 2) = .ok (.node (identities.vertex vertex) copy) := by
    rw [meaningOfChild, named, if_pos rfl, id, dataOutlines]
    simp only [bind, Except.bind, meaningOfData_nodes, read, mapError_ok]
    rfl
  exact fills_of_meaningOfChild rfl means rfl

/-- An edge between vertices that were read is added. -/
theorem fills_edge [Endpoints E V] {identities : Identities V E} {position : Nat} {edge copy : E}
    {source target : V} {before : Filling G V} {taken : Bool} {graph : G}
    (sources : before.vertices.lookup (identities.vertex (Endpoints.source edge)) = some source)
    (targets : before.vertices.lookup (identities.vertex (Endpoints.target edge)) = some target)
    (read : codecs.edge.readEntries (codecs.edge.write edge)
      (codecs.edge.applyDefaults
        (factories.edge source target (identities.edge position edge))) = .ok copy)
    (adds : Target.addEdge copy before.graph = (.ok taken, graph)) :
    Fills codecs factories indent? [edgeOutline codecs identities position edge] before
      { before with graph := graph } := by
  have named : ((edgeHeading (identities.edge position edge)
      (identities.vertex (Endpoints.source edge))
      (identities.vertex (Endpoints.target edge))).element written).name = ElementName.edge :=
    Heading.name_element _ _
  have means : meaningOfChild codecs factories (some writtenNamespace) before.vertices
      ((edgeHeading (identities.edge position edge) (identities.vertex (Endpoints.source edge))
        (identities.vertex (Endpoints.target edge))).element written)
      (Outlines.nodes written indent? 3 (dataOutlines codecs.edge edge) ++
        breakNodes indent? 2) = .ok (.edge copy) := by
    obtain ⟨id, sourceId, targetId⟩ := valueOf_edgeHeading (identities.edge position edge)
      (identities.vertex (Endpoints.source edge)) (identities.vertex (Endpoints.target edge))
    rw [meaningOfChild, named, if_neg (by decide), if_pos rfl, id, sourceId, targetId,
      dataOutlines]
    simp only [bind, Except.bind, vertexOf, sources, targets, meaningOfData_nodes, read,
      mapError_ok]
    rfl
  apply fills_of_meaningOfChild rfl means
  rw [addChild, adds]
  rfl

/-- A written document means what the children of its graph element fill in. -/
theorem readTrace_document [Endpoints E V] (settings : WriterSettings)
    (identities : Identities V E) (listing : Listing V E A) {graph : G} {after : Filling G V}
    (fills : Fills codecs factories settings.indent? (graphOutlines codecs identities listing)
      ⟨applyGraphDefaults codecs.graph graph, []⟩ after) :
    readTrace codecs factories (Markup.read (rendered settings.indent? .initial
      (documentItems settings.declaration ElementName.graphml namespaceName
        (outlines codecs settings identities listing)))) graph = (.ok (), after.graph) := by
  have resolves : (rootScope namespaceName).resolve [] = written :=
    resolve_rootScope (by decide)
  have inside := Outlines.readsBack (rootScope namespaceName) settings.indent? 2
    (graphOutlines codecs identities listing)
  rw [resolves] at inside
  have behind := meaningOfChildren_breakNodes codecs factories (some writtenNamespace) after
    settings.indent? 1 []
  rw [List.append_nil] at behind
  have wellFormed : Forest.WellFormed (Outlines.nodes written settings.indent? 2
      (graphOutlines codecs identities listing)) := Outlines.wellFormed_nodes _ 2
  rw [documentItems_outlines,
    readTrace_graphItems codecs factories codecs settings listing wellFormed inside, fills, behind]
  rfl

end

end GraphMarkup.Document
