import GraphMarkup.Proofs.Document.RoundTrip
import GraphMarkup.Proofs.Markup.Fragment

/-!
# Annotated documents

Hooks put elements behind the data of the graph, of its vertices and of its edges. A reader
passes over every element of another namespace, and inside a node or an edge over
descriptions as well; such a document means what the one that is written without hooks
means. Between the nodes and edges a description is no content that a reader knows.
-/

namespace GraphMarkup.Document

open GraphMarkup.Attributes
open GraphMarkup.Graph
open GraphMarkup.Markup
open GraphMarkup.Text

/-! ## What hooks append -/

/-- The name of a description. -/
def descriptionName : String := "desc"

/-- A description. -/
def IsDescription (head : Element) : Prop :=
  IsNamed (some writtenNamespace) descriptionName head

/-- An element of another namespace than that of written documents. -/
def IsForeign (head : Element) : Prop :=
  head.namespace? ≠ some writtenNamespace

/-- What nodes and edges are annotated with: a description or an element of another namespace. -/
def IsRemark (head : Element) : Prop :=
  IsDescription head ∨ IsForeign head

instance (head : Element) : Decidable (IsDescription head) :=
  inferInstanceAs (Decidable (IsNamed _ _ _))

instance (head : Element) : Decidable (IsForeign head) :=
  inferInstanceAs (Decidable (_ ≠ _))

instance (head : Element) : Decidable (IsRemark head) :=
  inferInstanceAs (Decidable (_ ∨ _))

/-- A hook writes a list of well-formed elements whose heads are allowed. -/
def Appends (Allowed : Element → Prop) (output : Draft) : Prop :=
  ∃ fragments, output = .ofItems (Fragments.items fragments) ∧
    Fragments.AreElements (rootScope namespaceName) Allowed fragments

theorem Appends.mono {Allowed Allowed' : Element → Prop} {output : Draft}
    (wider : ∀ head, Allowed head → Allowed' head) (appends : Appends Allowed output) :
    Appends Allowed' output := by
  obtain ⟨fragments, same, elements⟩ := appends
  exact ⟨fragments, same, elements.mono wider⟩

/-- Hooks write nothing but allowed elements, some behind the data of the graph and others
behind those of its vertices and edges. -/
structure Hooks.AppendOnly {V E A : Type} (hooks : Hooks V E A)
    (InGraph InOwners : Element → Prop) (listing : Listing V E A) : Prop where
  graph : Appends InGraph (hooks.graph listing)
  vertices : ∀ vertex ∈ listing.vertices, Appends InOwners (hooks.vertex vertex)
  edges : ∀ edge ∈ listing.edges, Appends InOwners (hooks.edge edge)

/-- A description with a text. -/
def descriptionOf (text : String) : Fragment :=
  .element descriptionName [] [.text text]

/-- Descriptions are well-formed, whatever their texts are. -/
theorem areElements_descriptionOf (text : String) :
    Fragments.AreElements (rootScope namespaceName) IsDescription [descriptionOf text] := by
  have opens : ∃ entered ∈ enter? (rootScope namespaceName) descriptionName [],
      IsDescription entered.1 := by
    decide +kernel
  obtain ⟨entered, found, described⟩ := opens
  intro fragment member
  cases List.mem_singleton.mp member
  refine ⟨⟨entered, found, trivial, trivial⟩, entered.1, ?_, described⟩
  rw [descriptionOf, Fragment.head?, Option.mem_def.mp found]
  rfl

/-- A node or an edge with annotations behind its data. -/
structure Annotated where
  heading : Heading
  owns : heading.name = ElementName.node ∨ heading.name = ElementName.edge
  data : List Outline
  added : List Fragment
  annotates : Fragments.AreElements (rootScope namespaceName) IsRemark added

namespace Annotated

/-- The node or the edge without annotations. -/
def outline (owner : Annotated) : Outline :=
  .branch owner.heading owner.data

/-- The items of a node or an edge with its annotations. -/
def items (owner : Annotated) : List Item :=
  owner.heading.opening ::
    ((Outlines.items owner.data ++ Fragments.items owner.added) ++ [owner.heading.closing])

end Annotated

/-! ## Drafts with hooks -/

section

variable {V E A : Type} [Endpoints E V] {codecs : Codecs V E A} {hooks : Hooks V E A}
  {identities : Identities V E} {listing : Listing V E A}

omit [Endpoints E V] in
variable (codecs identities) in
/-- A node is written with what the hook appends. -/
theorem exists_nodeDraft_eq {vertex : V} (appends : Appends IsRemark (hooks.vertex vertex)) :
    ∃ owner : Annotated, nodeDraft codecs hooks identities vertex = .ofItems owner.items ∧
      owner.outline = nodeOutline codecs identities vertex := by
  obtain ⟨added, output, annotates⟩ := appends
  refine ⟨⟨nodeHeading (identities.vertex vertex), .inl rfl, dataOutlines codecs.vertex vertex,
    added, annotates⟩, ?_, rfl⟩
  rw [nodeDraft, output, Annotated.items, items_dataOutlines]
  simp [Heading.opening, Heading.closing, nodeHeading, Heading.ofKeys]

variable (codecs identities) in
/-- An edge is written with what the hook appends. -/
theorem exists_edgeDraft_eq {edge : E} (appends : Appends IsRemark (hooks.edge edge))
    (position : Nat) :
    ∃ owner : Annotated,
      edgeDraft codecs hooks identities position edge = .ofItems owner.items ∧
        owner.outline = edgeOutline codecs identities position edge := by
  obtain ⟨added, output, annotates⟩ := appends
  refine ⟨⟨edgeHeading (identities.edge position edge)
    (identities.vertex (Endpoints.source edge)) (identities.vertex (Endpoints.target edge)),
    .inr rfl, dataOutlines codecs.edge edge, added, annotates⟩, ?_, rfl⟩
  rw [edgeDraft, output, Annotated.items, items_dataOutlines]
  simp [Heading.opening, Heading.closing, edgeHeading, Heading.ofKeys]

/-- If each of some drafts is an annotated element, they are annotated elements together. -/
theorem exists_concat_eq {α : Type} {write : α → Draft} (outline : α → Outline)
    {sources : List α}
    (each : ∀ source ∈ sources, ∃ owner : Annotated,
      write source = .ofItems owner.items ∧ owner.outline = outline source) :
    ∃ owners : List Annotated,
      Draft.concat (sources.map write) = .ofItems (owners.flatMap Annotated.items) ∧
        owners.map Annotated.outline = sources.map outline := by
  induction sources with
  | nil => exact ⟨[], rfl, rfl⟩
  | cons source sources ih =>
    rw [List.forall_mem_cons] at each
    obtain ⟨owner, first, firstOutline⟩ := each.1
    obtain ⟨owners, more, moreOutlines⟩ := ih each.2
    refine ⟨owner :: owners, ?_, ?_⟩
    · rw [List.map_cons, List.flatMap_cons, ← Draft.ofItems_append, ← more, ← first]
      rfl
    · rw [List.map_cons, List.map_cons, firstOutline, moreOutlines]

variable (codecs identities) in
/-- With hooks that append annotations to vertices and edges the graph element holds its
data, what the hook appends to it, and the annotated nodes and edges. -/
theorem exists_draft_eq {InGraph : Element → Prop}
    (appendOnly : hooks.AppendOnly InGraph IsRemark listing) (settings : WriterSettings) :
    ∃ (added : List Fragment) (owners : List Annotated),
      hooks.graph listing = .ofItems (Fragments.items added) ∧
      Fragments.AreElements (rootScope namespaceName) InGraph added ∧
      owners.map Annotated.outline =
        listing.vertices.map (nodeOutline codecs identities) ++
          listing.edges.mapIdx (edgeOutline codecs identities) ∧
      draft codecs settings hooks identities listing =
        .ofItems (graphItems codecs settings listing
          (Outlines.items (dataOutlines codecs.graph listing.attributes) ++
            (Fragments.items added ++ owners.flatMap Annotated.items))) := by
  obtain ⟨added, output, elements⟩ := appendOnly.graph
  obtain ⟨nodes, writesNodes, nodeOutlines⟩ :=
    exists_concat_eq (nodeOutline codecs identities) fun vertex member =>
      exists_nodeDraft_eq codecs identities (appendOnly.vertices vertex member)
  obtain ⟨edges, writesEdges, edgeOutlines⟩ :=
    exists_concat_eq (fun entry : E × Nat => edgeOutline codecs identities entry.2 entry.1)
      fun entry member => exists_edgeDraft_eq codecs identities
        (appendOnly.edges entry.1 (List.fst_mem_of_mem_zipIdx member)) entry.2
  refine ⟨added, nodes ++ edges, output, elements, ?_, ?_⟩
  · rw [List.map_append, nodeOutlines, edgeOutlines, List.mapIdx_eq_zipIdx_map]
  have opening : graphOpening settings listing = (graphHeading settings listing).opening := rfl
  have closing : (graphHeading settings listing).closing = .closing ElementName.graph := rfl
  rw [draft, List.mapIdx_eq_zipIdx_map, writesNodes, writesEdges, output]
  simp only [Draft.ofItems_append, headItems, graphItems, rootItems,
    declarationOutlines, items_append, items_keyOutlines, items_dataOutlines, opening, closing]
  simp

end

/-! ## What annotations mean -/

section

variable {V E A G : Type} [Target G V E A] (reader : Codecs V E A) (factories : Factories V E)

variable (G) in
/-- Two contents of the graph element say the same, whatever a graph is filled with before. -/
def SaysAlike (content other : List Node) : Prop :=
  ∀ filling : Filling G V,
    meaningOfChildren reader factories (some writtenNamespace) filling content =
      meaningOfChildren reader factories (some writtenNamespace) filling other

namespace SaysAlike

variable {reader factories} {front front' back back' : List Node}

variable (reader factories) in
theorem refl (content : List Node) : SaysAlike G reader factories content content :=
  fun _ => rfl

theorem append (first : SaysAlike G reader factories front front')
    (second : SaysAlike G reader factories back back') :
    SaysAlike G reader factories (front ++ back) (front' ++ back') := by
  intro filling
  rw [meaningOfChildren_append, meaningOfChildren_append, first filling]
  rcases meaningOfChildren reader factories (some writtenNamespace) filling front' with
    ⟨result, filled⟩
  cases result with
  | error error => rfl
  | ok => exact second filled

/-- Elements of other namespaces say nothing. -/
theorem foreign (allForeign : ∀ root ∈ Forest.roots front, IsForeign root.1) :
    SaysAlike G reader factories front [] :=
  fun filling => meaningOfChildren_of_foreign allForeign filling

/-- A node or an edge says the same with other elements than data behind its data. -/
theorem owner {head : Element} {data added rest : List Node}
    (owns : head.name = ElementName.node ∨ head.name = ElementName.edge)
    (passive : ∀ root ∈ Forest.roots added,
      ¬IsNamed (some writtenNamespace) ElementName.data root.1) :
    SaysAlike G reader factories [.element head (data ++ added ++ rest)]
      [.element head (data ++ rest)] := by
  intro filling
  have same : ∀ {α : Type} (codec : Codec α) (owner : α),
      meaningOfData (some writtenNamespace) codec owner (data ++ added ++ rest) =
        meaningOfData (some writtenNamespace) codec owner (data ++ rest) := by
    intro α codec owner
    rw [List.append_assoc, meaningOfData_append, meaningOfData_append]
    refine bind_congr fun middle => ?_
    rw [meaningOfData_append, meaningOfData_of_unnamed passive]
    rfl
  simp only [meaningOfChildren, meaningOfChild_congr owns same]

end SaysAlike

/-- Inside the root of a written document names without qualifiers are in its namespace. -/
theorem resolve_writtenScope : (rootScope namespaceName).resolve [] = written :=
  resolve_rootScope (by decide)

/-- What annotates a node or an edge is no data of it. -/
theorem IsRemark.not_data {head : Element} (remark : IsRemark head) :
    ¬IsNamed (some writtenNamespace) ElementName.data head := by
  rintro ⟨inNamespace, named⟩
  rcases remark with description | isForeign
  · have same : ElementName.data = descriptionName := named.symm.trans description.2
    exact absurd same (by decide)
  · exact isForeign inNamespace

variable {indent? : Option Nat}

variable (G indent?) in
/-- Annotated nodes and edges are read back as content that says what they say without
annotations. -/
theorem exists_readsBack_owners (owners : List Annotated) :
    ∃ nodes, Forest.WellFormed nodes ∧
      SaysAlike G reader factories nodes
        (Outlines.nodes written indent? 2 (owners.map Annotated.outline)) ∧
      ReadsBack (rootScope namespaceName) indent? 2 (owners.flatMap Annotated.items) nodes := by
  induction owners with
  | nil => exact ⟨[], trivial, .refl _ _ _, .nil⟩
  | cons owner owners ih =>
    obtain ⟨more, moreWellFormed, moreSays, moreReads⟩ := ih
    obtain ⟨added, addedWellFormed, heads, addedReads⟩ :=
      Fragments.exists_readsBack owner.annotates 3
    have inside := (Outlines.readsBack (rootScope namespaceName) indent? 3 owner.data).append
      addedReads
    have whole := (inside.branch owner.heading).append moreReads
    rw [resolve_writtenScope] at whole
    have owns : (owner.heading.element written).name = ElementName.node ∨
        (owner.heading.element written).name = ElementName.edge := by
      rw [owner.heading.name_element]
      exact owner.owns
    refine ⟨_, ?_, ?_, whole⟩
    · simp only [Forest.wellFormed_append]
      exact ⟨⟨wellFormed_breakNodes _ 2, ⟨owner.heading.wellFormed_element,
        Forest.wellFormed_append.mpr ⟨Forest.wellFormed_append.mpr
          ⟨Outlines.wellFormed_nodes _ 3, addedWellFormed⟩, wellFormed_breakNodes _ 2⟩⟩, trivial⟩,
        moreWellFormed⟩
    · rw [List.map_cons, Outlines.nodes, List.append_cons _ (owner.outline.node written indent? 2)]
      refine SaysAlike.append (SaysAlike.append (.refl _ _ _) ?_) moreSays
      exact SaysAlike.owner owns fun _ member =>
        (owner.annotates.allowed_of_mem_roots heads member).not_data

end

/-! ## Reading annotated documents -/

section

variable {V E A : Type} [Endpoints E V] {codecs : Codecs V E A} {hooks : Hooks V E A}
  {identities : Identities V E} {listing : Listing V E A} {settings : WriterSettings}

omit [Endpoints E V] in
/-- Documents whose graph elements say the same are read alike. -/
theorem SaysAlike.readTrace_eq {V' E' A' G : Type} [Target G V' E' A'] {reader : Codecs V' E' A'}
    {factories : Factories V' E'} {content other : List Item} {nodes otherNodes : List Node}
    (alike : SaysAlike G reader factories nodes otherNodes)
    (wellFormed : Forest.WellFormed nodes)
    (reads : ReadsBack (rootScope namespaceName) settings.indent? 2 content nodes)
    (otherWellFormed : Forest.WellFormed otherNodes)
    (otherReads : ReadsBack (rootScope namespaceName) settings.indent? 2 other otherNodes)
    (graph : G) :
    readTrace reader factories (Markup.read (rendered settings.indent? .initial
        (graphItems codecs settings listing content))) graph =
      readTrace reader factories (Markup.read (rendered settings.indent? .initial
        (graphItems codecs settings listing other))) graph := by
  rw [readTrace_graphItems reader factories codecs settings listing wellFormed reads,
    readTrace_graphItems reader factories codecs settings listing otherWellFormed otherReads]
  exact congrArg (Prod.map id Filling.graph) (alike.append (.refl _ _ _) _)

/-- The content of the graph element is read back as its data, what is appended to it, and
nodes and edges that say what they say without annotations. -/
theorem exists_readsBack_content {V' E' A' : Type} (G : Type) [Target G V' E' A']
    (reader : Codecs V' E' A') (factories : Factories V' E') (indent? : Option Nat)
    (data : List Outline) {InGraph : Element → Prop} {added : List Fragment}
    (elements : Fragments.AreElements (rootScope namespaceName) InGraph added)
    (owners : List Annotated) :
    ∃ addedNodes ownerNodes,
      Forest.WellFormed (Outlines.nodes written indent? 2 data ++ (addedNodes ++ ownerNodes)) ∧
      (Forest.roots addedNodes).map Prod.fst =
        added.filterMap (Fragment.head? (rootScope namespaceName)) ∧
      SaysAlike G reader factories ownerNodes
        (Outlines.nodes written indent? 2 (owners.map Annotated.outline)) ∧
      ReadsBack (rootScope namespaceName) indent? 2
        (Outlines.items data ++ (Fragments.items added ++ owners.flatMap Annotated.items))
        (Outlines.nodes written indent? 2 data ++ (addedNodes ++ ownerNodes)) := by
  obtain ⟨addedNodes, addedWellFormed, heads, addedReads⟩ := Fragments.exists_readsBack elements 2
  obtain ⟨ownerNodes, ownersWellFormed, ownersSay, ownersRead⟩ :=
    exists_readsBack_owners G reader factories indent? owners
  have dataReads := Outlines.readsBack (rootScope namespaceName) indent? 2 data
  rw [resolve_writtenScope] at dataReads
  refine ⟨addedNodes, ownerNodes, ?_, heads, ownersSay,
    dataReads.append (addedReads.append ownersRead)⟩
  rw [Forest.wellFormed_append, Forest.wellFormed_append]
  exact ⟨Outlines.wellFormed_nodes data 2, addedWellFormed, ownersWellFormed⟩

/-- Annotations are invisible: a document whose hooks append elements of other namespaces to
the graph, and such elements and descriptions to vertices and edges, is written, and every
reader gets out of it what it gets out of the document that is written without hooks. -/
theorem read_annotated_document {type : GraphType V E A} (compiled : type.compile = .ok codecs)
    (appendOnly : hooks.AppendOnly IsForeign IsRemark listing) (settings : WriterSettings)
    (identities : Identities V E) {V' E' A' G : Type} [Target G V' E' A']
    (readerType : GraphType V' E' A') (factories : Factories V' E') :
    ∃ annotated plain,
      document type settings hooks identities listing = .ok annotated ∧
        document type settings (Hooks.none V E A) identities listing = .ok plain ∧
        ∀ graph : G, read readerType factories annotated graph =
          read readerType factories plain graph := by
  obtain ⟨added, owners, -, foreign, outlined, drafted⟩ :=
    exists_draft_eq codecs identities appendOnly settings
  refine ⟨_, _, document_of_draft compiled drafted,
    document_eq codecs settings identities listing compiled, ?_⟩
  intro graph
  rw [read, read]
  cases readerType.compile with
  | error error => rfl
  | ok reader =>
    obtain ⟨addedNodes, ownerNodes, wellFormed, heads, ownersSay, reads⟩ :=
      exists_readsBack_content G reader factories settings.indent?
        (dataOutlines codecs.graph listing.attributes) foreign owners
    have plainReads := Outlines.readsBack (rootScope namespaceName) settings.indent? 2
      (graphOutlines codecs identities listing)
    have silent : SaysAlike G reader factories addedNodes [] :=
      .foreign fun _ member => foreign.allowed_of_mem_roots heads member
    have alike := (SaysAlike.refl reader factories (Outlines.nodes written settings.indent? 2
      (dataOutlines codecs.graph listing.attributes))).append (silent.append ownersSay)
    have whole : dataOutlines codecs.graph listing.attributes ++
        (listing.vertices.map (nodeOutline codecs identities) ++
          listing.edges.mapIdx (edgeOutline codecs identities)) =
            graphOutlines codecs identities listing := (List.append_assoc _ _ _).symm
    rw [List.nil_append, outlined, ← nodes_append, whole] at alike
    rw [resolve_writtenScope] at plainReads
    rw [documentItems_outlines]
    exact alike.readTrace_eq wellFormed reads (Outlines.wellFormed_nodes _ 2) plainReads graph

/-- A description in the graph ends the reading: of what stands in the graph nothing is read
but its data. -/
theorem read_described_document [BEq V] [Hashable V] {type : GraphType V E A}
    (compiled : type.compile = .ok codecs)
    (appendOnly : hooks.AppendOnly IsDescription IsRemark listing)
    (present : hooks.graph listing ≠ .ofItems []) (settings : WriterSettings)
    (identities : Identities V E) (factories : Factories V E) (graph : AdjacencyGraph V E A)
    {attributes : A}
    (data : codecs.graph.readEntries (codecs.graph.write listing.attributes)
      (codecs.graph.applyDefaults graph.attributes) = .ok attributes) :
    ∃ described, document type settings hooks identities listing = .ok described ∧
      read type factories described graph =
        (.error (.unexpectedElement descriptionName), { graph with attributes := attributes }) := by
  obtain ⟨added, owners, output, descriptions, -, drafted⟩ :=
    exists_draft_eq codecs identities appendOnly settings
  refine ⟨_, document_of_draft compiled drafted, ?_⟩
  obtain ⟨addedNodes, ownerNodes, wellFormed, heads, -, reads⟩ :=
    exists_readsBack_content (AdjacencyGraph V E A) codecs factories settings.indent?
      (dataOutlines codecs.graph listing.attributes) descriptions owners
  have rooted : Forest.roots addedNodes ≠ [] := by
    intro none
    cases added with
    | nil => exact present output
    | cons fragment added =>
      obtain ⟨-, head, isHead, -⟩ := descriptions fragment List.mem_cons_self
      rw [none, List.filterMap_cons_some isHead] at heads
      cases heads
  have fills : Fills codecs factories settings.indent?
      (dataOutlines codecs.graph listing.attributes)
      ⟨applyGraphDefaults codecs.graph graph, []⟩
      ⟨{ graph with attributes := attributes }, []⟩ :=
    fills_dataOutlines data
  have unexpected : descriptionName ∉ [ElementName.node, ElementName.edge, ElementName.data] := by
    decide
  have named : ∀ root ∈ Forest.roots addedNodes, IsDescription root.1 := fun _ member =>
    descriptions.allowed_of_mem_roots heads member
  rw [read, compiled]
  dsimp only
  rw [readTrace_graphItems codecs factories codecs settings listing wellFormed reads,
    List.append_assoc, List.append_assoc]
  have reading := (fills (addedNodes ++ (ownerNodes ++ breakNodes settings.indent? 1))).trans
    (meaningOfChildren_of_unexpected unexpected named rooted _ _)
  exact congrArg (Prod.map id Filling.graph) reading

end

section

open GraphMarkup.Sample

/-- Mark the layer of a network and describe towns and roads by their ids. -/
def layeredRoads : Hooks Town Road Network where
  graph _ := .ofItems (Fragments.items
    [.element "l:layer" [("xmlns:l", "urn:layers")]
      [.empty "desc" [], .cdata "<data>", .instruction "layer 1", .comment " a & b ",
        .escaped "&lt;&#55;"]])
  vertex town := .ofItems (Fragments.items [descriptionOf town.name])
  edge road := .ofItems (Fragments.items [descriptionOf road.id])

theorem appendOnly_layeredRoads (listing : Listing Town Road Network) :
    layeredRoads.AppendOnly IsForeign IsRemark listing where
  graph := ⟨_, rfl, by decide +kernel⟩
  vertices town _ := ⟨_, rfl, (areElements_descriptionOf town.name).mono fun _ => .inl⟩
  edges road _ := ⟨_, rfl, (areElements_descriptionOf road.id).mono fun _ => .inl⟩

/-- The layer and the descriptions of towns and roads are invisible. -/
theorem read_layeredTowns :
    roadGraphType.compile = .ok roadCodecs ∧
    layeredRoads.AppendOnly IsForeign IsRemark townGraph.listing ∧
    ∃ annotated plain,
      document roadGraphType {} layeredRoads roadIdentities townGraph.listing = .ok annotated ∧
        document roadGraphType {} (Hooks.none Town Road Network) roadIdentities
          townGraph.listing = .ok plain ∧
        ∀ graph : AdjacencyGraph Town Road Network,
          read roadGraphType roadFactories annotated graph =
            read roadGraphType roadFactories plain graph :=
  ⟨compile_roadGraphType, appendOnly_layeredRoads _,
    read_annotated_document compile_roadGraphType (appendOnly_layeredRoads _) {} roadIdentities
      roadGraphType roadFactories⟩

/-- Describe a network by its label. -/
def describedRoads : Hooks Town Road Network where
  graph listing := .ofItems (Fragments.items [descriptionOf listing.attributes.label])
  vertex _ := .ofItems []
  edge _ := .ofItems []

theorem appendOnly_describedRoads (listing : Listing Town Road Network) :
    describedRoads.AppendOnly IsDescription IsRemark listing where
  graph := ⟨_, rfl, areElements_descriptionOf _⟩
  vertices _ _ := ⟨[], rfl, by simp [Fragments.AreElements]⟩
  edges _ _ := ⟨[], rfl, by simp [Fragments.AreElements]⟩

/-- The description of a network is not invisible: with it the network is not read. -/
theorem read_describedTowns :
    describedRoads.AppendOnly IsRemark IsRemark townGraph.listing ∧
    ∃ described plain,
      document roadGraphType {} describedRoads roadIdentities townGraph.listing =
          .ok described ∧
        document roadGraphType {} (Hooks.none Town Road Network) roadIdentities
          townGraph.listing = .ok plain ∧
        let empty : AdjacencyGraph Town Road Network :=
          .empty townGraph.directed townGraph.allowsParallelEdges {}
        (read roadGraphType roadFactories described empty).1 =
            .error (.unexpectedElement descriptionName) ∧
          (read roadGraphType roadFactories plain empty).1 = .ok () := by
  have appendOnly := appendOnly_describedRoads townGraph.listing
  refine ⟨⟨appendOnly.graph.mono fun _ => .inl, appendOnly.vertices, appendOnly.edges⟩, ?_⟩
  have present : describedRoads.graph townGraph.listing ≠ .ofItems [] := by
    intro none
    cases none
  have consistent : townGraph.Consistent :=
    AdjacencyGraph.Reachable.consistent ⟨_, _, _, _, rfl⟩
  obtain ⟨attributes, data, -⟩ := Codec.readEntries_write regular_roadCodecs.graphFields
    regular_roadCodecs.graphNames (Codec.Remainder.trivial roadCodecs.graph)
    represents_townGraph.attributes ({} : Network)
  obtain ⟨described, writes, stops⟩ :=
    read_described_document compile_roadGraphType appendOnly present {} roadIdentities
      roadFactories (.empty townGraph.directed townGraph.allowsParallelEdges {}) data
  obtain ⟨-, -, after, -, fills, -⟩ := exists_fills_graphOutlines consistent regular_roadCodecs
    represents_townGraph restorable_townGraph (some 2) ({} : Network)
  refine ⟨described, _, writes, document_eq roadCodecs {} roadIdentities townGraph.listing
    compile_roadGraphType, congrArg Prod.fst stops, ?_⟩
  rw [read, compile_roadGraphType]
  exact congrArg Prod.fst (readTrace_document {} roadIdentities townGraph.listing fills)

end

end GraphMarkup.Document
