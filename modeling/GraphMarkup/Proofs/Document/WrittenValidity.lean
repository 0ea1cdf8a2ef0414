import GraphMarkup.Proofs.Document.Outlines
import GraphMarkup.Proofs.Schema.GraphSchema
import GraphMarkup.Proofs.Text.Integer
import GraphMarkup.Proofs.Validation.Conformity
import GraphMarkup.Sample.Roads

/-!
# The validity of written documents

The outline of a document conforms to the schema of graph documents, whatever the
values, the names and the ids in it are. So a written document is valid exactly if
its keys and its nodes have distinct ids and its edges end in nodes.
-/

namespace GraphMarkup.Document

open GraphMarkup.Attributes
open GraphMarkup.Graph
open GraphMarkup.Markup
open GraphMarkup.Schema
open GraphMarkup.Text
open GraphMarkup.Validation
open GraphMarkup.Value

/-! ## Conformity -/

/-- The schema of graph documents lets an element with some keys stand in another one. -/
def allows (parent name : String) (keys : List String) : Bool :=
  (graphSchema.element? parent).any (·.children.contains name) &&
    (graphSchema.element? name).any fun declaration =>
      declaration.required.all fun required => keys.contains (unqualified required)

theorem lookup_isSome_of_mem {attributes : List (String × String)} {key : String}
    (member : key ∈ attributes.map Prod.fst) : (attributes.lookup key).isSome := by
  rw [Option.isSome_iff_ne_none, ne_eq, List.lookup_eq_none_iff]
  intro absent
  obtain ⟨entry, listed, rfl⟩ := List.mem_map.mp member
  simpa using absent entry listed

/-- A heading conforms if its keys do and its values are accepted. -/
theorem headingConforms_of_allows {depth : Nat} {parent : String} {heading : Heading}
    (nested : depth < 64)
    (allowed : allows parent heading.name (heading.attributes.map Prod.fst))
    (accepted : ∀ entry ∈ heading.attributes,
      (graphSchema.lexicalSpace entry.1).accepts entry.2) :
    HeadingConforms {} graphSchema depth parent heading := by
  rw [allows, Bool.and_eq_true] at allowed
  obtain ⟨standing, carrying⟩ := allowed
  constructor
  · exact nested
  · exact standing
  · cases declared : graphSchema.element? heading.name with
    | none =>
      rw [declared] at carrying
      cases carrying
    | some declaration => rfl
  · intro declaration declared required member
    rw [Option.mem_def.mp declared, Option.any_some, List.all_eq_true] at carrying
    apply lookup_isSome_of_mem
    simpa using carrying required member
  · exact accepted

/-- Ids, references to them and names may be any text. -/
theorem accepts_freeText {key : String}
    (free : key ∈ [AttributeName.id, AttributeName.name, AttributeName.key,
      AttributeName.source, AttributeName.target]) (value : String) :
    (graphSchema.lexicalSpace key).accepts value := by
  have unrestricted : ∀ key ∈ [AttributeName.id, AttributeName.name, AttributeName.key,
      AttributeName.source, AttributeName.target],
      graphSchema.lexicalSpace key = .unrestricted := by
    decide
  rw [unrestricted key free]
  rfl

/-- A count in the range of the machine is accepted. -/
theorem accepts_count {count : Nat} (fits : count < UInt64.size) :
    LexicalSpace.nonNegativeInteger.accepts (toString count) := by
  have written : (toString count).toList = Nat.toDigits 10 count := by
    rw [Nat.toString_eq_repr, Nat.toList_repr]
  have trimmed : trim (toString count) = toString count := by
    apply trim_eq_self
    intro char member
    rw [written] at member
    exact isBlank_of_isDigit (isDigit_of_mem_toDigits member)
  rw [LexicalSpace.accepts, trimmed, written, readNatural_toDigits (Nat.le_sub_one_of_lt fits)]
  rfl

/-- The word for a kind is one that the schema lists. -/
theorem accepts_declaredName (kind : ValueKind) :
    (graphSchema.lexicalSpace AttributeName.valueType).accepts kind.declaredName := by
  have listed : ∀ element : ScalarKind,
      (graphSchema.lexicalSpace AttributeName.valueType).accepts element.name := by
    intro element
    cases element <;> decide
  cases kind with
  | scalar element => exact listed element
  | list element => exact listed .string
  | nullable element => exact listed .string

theorem conforms_keyHeading {α : Type} (target : KeyTarget) (property : Property α) :
    HeadingConforms {} graphSchema 1 ElementName.graphml (keyHeading target property) := by
  apply headingConforms_of_allows (by decide)
  · exact (by decide : allows ElementName.graphml ElementName.key
      [AttributeName.id, AttributeName.owner, AttributeName.name, AttributeName.valueType])
  · intro entry member
    simp only [keyHeading, Heading.ofKeys, List.mem_cons, List.not_mem_nil, or_false] at member
    rcases member with rfl | rfl | rfl | rfl
    · exact accepts_freeText (by simp) _
    · cases target <;> decide
    · exact accepts_freeText (by simp) _
    · exact accepts_declaredName property.kind

theorem conforms_defaultHeading :
    HeadingConforms {} graphSchema 2 ElementName.key defaultHeading := by
  apply headingConforms_of_allows (by decide)
  · exact (by decide : allows ElementName.key ElementName.default [])
  · intro entry member
    cases member

/-- Data may stand in the graph, in nodes and in edges. -/
theorem conforms_dataHeading {depth : Nat} (nested : depth < 64) {parent : String}
    (owner : parent ∈ [ElementName.graph, ElementName.node, ElementName.edge]) (key : String) :
    HeadingConforms {} graphSchema depth parent (dataHeading key) := by
  apply headingConforms_of_allows nested
  · have allowed : ∀ parent ∈ [ElementName.graph, ElementName.node, ElementName.edge],
        allows parent ElementName.data [AttributeName.key] := by
      decide
    exact allowed parent owner
  · intro entry member
    rw [List.mem_singleton.mp member]
    exact accepts_freeText (by simp) _

theorem conforms_nodeHeading (id : String) :
    HeadingConforms {} graphSchema 2 ElementName.graph (nodeHeading id) := by
  apply headingConforms_of_allows (by decide)
  · exact (by decide : allows ElementName.graph ElementName.node [AttributeName.id])
  · intro entry member
    rw [List.mem_singleton.mp member]
    exact accepts_freeText (by simp) _

theorem conforms_edgeHeading (id source target : String) :
    HeadingConforms {} graphSchema 2 ElementName.graph (edgeHeading id source target) := by
  apply headingConforms_of_allows (by decide)
  · exact (by decide : allows ElementName.graph ElementName.edge
      [AttributeName.id, AttributeName.source, AttributeName.target])
  · intro entry member
    simp only [edgeHeading, Heading.ofKeys, List.mem_cons, List.not_mem_nil, or_false] at member
    rcases member with rfl | rfl | rfl
    · exact accepts_freeText (by simp) _
    · exact accepts_freeText (by simp) _
    · exact accepts_freeText (by simp) _

section

variable {V E A : Type}

theorem conforms_graphHeading (settings : WriterSettings) {listing : Listing V E A}
    (vertices : listing.vertexCount < UInt64.size) (edges : listing.edgeCount < UInt64.size) :
    HeadingConforms {} graphSchema 1 ElementName.graphml (graphHeading settings listing) := by
  apply headingConforms_of_allows (by decide)
  · exact (by decide : allows ElementName.graphml ElementName.graph
      [AttributeName.id, AttributeName.edgeDefault, AttributeName.nodeCount,
        AttributeName.edgeCount, AttributeName.order, AttributeName.nodeIds,
        AttributeName.edgeIds])
  · have nodeCount : graphSchema.lexicalSpace AttributeName.nodeCount = .nonNegativeInteger := by
      decide
    have edgeCount : graphSchema.lexicalSpace AttributeName.edgeCount = .nonNegativeInteger := by
      decide
    intro entry member
    simp only [graphHeading, Heading.ofKeys, List.mem_cons, List.not_mem_nil, or_false] at member
    rcases member with rfl | rfl | rfl | rfl | rfl | rfl | rfl
    · exact accepts_freeText (by simp) _
    · cases listing.directed <;> decide
    · rw [nodeCount]
      exact accepts_count vertices
    · rw [edgeCount]
      exact accepts_count edges
    · decide
    · decide
    · decide

/-- A property is declared as the schema wants it. -/
theorem conforms_keyOutline {α : Type} (target : KeyTarget) (property : Property α) :
    OutlineConforms {} graphSchema 1 ElementName.graphml (keyOutline target property) := by
  refine ⟨conforms_keyHeading target property,
    (by decide : (graphSchema.element? ElementName.key).any (·.anyChildren) = false), ?_⟩
  rw [defaultOutlines]
  cases property.defaultText? with
  | none => trivial
  | some text =>
    exact ⟨⟨conforms_defaultHeading,
      (by decide : (graphSchema.element? ElementName.default).any (·.textAllowed))⟩, trivial⟩

theorem conform_dataOutlines {α : Type} {depth : Nat} (nested : depth < 64) {parent : String}
    (holder : parent ∈ [ElementName.graph, ElementName.node, ElementName.edge])
    (codec : Codec α) (owner : α) :
    OutlinesConform {} graphSchema depth parent (dataOutlines codec owner) := by
  rw [outlinesConform_iff]
  intro outline member
  obtain ⟨entry, _, rfl⟩ := List.mem_map.mp member
  exact ⟨conforms_dataHeading nested holder entry.1,
    (by decide : (graphSchema.element? ElementName.data).any (·.textAllowed))⟩

variable [Endpoints E V]

theorem conform_graphOutlines (codecs : Codecs V E A) (identities : Identities V E)
    (listing : Listing V E A) :
    OutlinesConform {} graphSchema 2 ElementName.graph
      (graphOutlines codecs identities listing) := by
  rw [outlinesConform_iff]
  intro outline member
  rw [graphOutlines, List.mem_append, List.mem_append] at member
  rcases member with (data | node) | edge
  · exact outlinesConform_iff.mp
      (conform_dataOutlines (by decide) (by simp) codecs.graph listing.attributes) outline data
  · obtain ⟨vertex, _, rfl⟩ := List.mem_map.mp node
    have holder : ElementName.node ∈ [ElementName.graph, ElementName.node, ElementName.edge] := by
      simp
    exact ⟨conforms_nodeHeading _,
      (by decide : (graphSchema.element? ElementName.node).any (·.anyChildren) = false),
      conform_dataOutlines (by decide) holder codecs.vertex vertex⟩
  · obtain ⟨position, _, rfl⟩ := List.mem_mapIdx.mp edge
    have holder : ElementName.edge ∈ [ElementName.graph, ElementName.node, ElementName.edge] := by
      simp
    exact ⟨conforms_edgeHeading _ _ _,
      (by decide : (graphSchema.element? ElementName.edge).any (·.anyChildren) = false),
      conform_dataOutlines (by decide) holder codecs.edge _⟩

/-- The outline of a document conforms to the schema of graph documents. -/
theorem conform_outlines (codecs : Codecs V E A) (settings : WriterSettings)
    (identities : Identities V E) {listing : Listing V E A}
    (vertices : listing.vertexCount < UInt64.size) (edges : listing.edgeCount < UInt64.size) :
    OutlinesConform {} graphSchema 1 ElementName.graphml
      (outlines codecs settings identities listing) := by
  have keys : ∀ {α : Type} (target : KeyTarget) (codec : Codec α),
      ∀ outline ∈ keyOutlines target codec,
        OutlineConforms {} graphSchema 1 ElementName.graphml outline := by
    intro α target codec outline member
    obtain ⟨property, _, rfl⟩ := List.mem_map.mp member
    exact conforms_keyOutline target property
  rw [outlinesConform_iff]
  intro outline member
  simp only [outlines, List.mem_append, List.mem_singleton] at member
  rcases member with ((graph | node) | edge) | rfl
  · exact keys .graph codecs.graph outline graph
  · exact keys .node codecs.vertex outline node
  · exact keys .edge codecs.edge outline edge
  · exact ⟨conforms_graphHeading settings vertices edges,
      (by decide : (graphSchema.element? ElementName.graph).any (·.anyChildren) = false),
      conform_graphOutlines codecs identities listing⟩

end

/-! ## Keys and references -/

theorem headings_append (front back : List Outline) :
    Outlines.headings (front ++ back) = Outlines.headings front ++ Outlines.headings back := by
  induction front with
  | nil => rfl
  | cons outline front ih =>
    rw [List.cons_append, Outlines.headings, ih, Outlines.headings, List.append_assoc]

theorem headings_eq_flatMap (outlines : List Outline) :
    Outlines.headings outlines = outlines.flatMap Outline.headings := by
  induction outlines with
  | nil => rfl
  | cons outline outlines ih => rw [Outlines.headings, ih, List.flatMap_cons]

theorem headings_dataOutlines {α : Type} (codec : Codec α) (owner : α) :
    Outlines.headings (dataOutlines codec owner) =
      (codec.write owner).map fun entry => dataHeading entry.1 := by
  rw [headings_eq_flatMap, dataOutlines, List.flatMap_map]
  exact List.map_eq_flatMap.symm

theorem headings_keyOutlines {α : Type} (target : KeyTarget) (codec : Codec α) :
    Outlines.headings (keyOutlines target codec) =
      codec.properties.flatMap fun property =>
        keyHeading target property :: Outlines.headings (defaultOutlines property) := by
  rw [headings_eq_flatMap, keyOutlines, List.flatMap_map]
  rfl

/-- The headings of the nodes of a graph. -/
def nodeHeadings {V E A : Type} (codecs : Codecs V E A) (identities : Identities V E)
    (vertices : List V) : List Heading :=
  vertices.flatMap fun vertex =>
    nodeHeading (identities.vertex vertex) ::
      Outlines.headings (dataOutlines codecs.vertex vertex)

/-- The headings of the edges of a graph, which are listed with their positions. -/
def edgeHeadings {V E A : Type} [Endpoints E V] (codecs : Codecs V E A)
    (identities : Identities V E) (edges : List (E × Nat)) : List Heading :=
  edges.flatMap fun entry =>
    edgeHeading (identities.edge entry.2 entry.1)
        (identities.vertex (Endpoints.source entry.1))
        (identities.vertex (Endpoints.target entry.1)) ::
      Outlines.headings (dataOutlines codecs.edge entry.1)

/-- The headings of a document stand in the order of its outline. -/
theorem headings_outlines {V E A : Type} [Endpoints E V] (codecs : Codecs V E A)
    (settings : WriterSettings) (identities : Identities V E) (listing : Listing V E A) :
    Outlines.headings (outlines codecs settings identities listing) =
      Outlines.headings (keyOutlines .graph codecs.graph) ++
        Outlines.headings (keyOutlines .node codecs.vertex) ++
        Outlines.headings (keyOutlines .edge codecs.edge) ++ [graphHeading settings listing] ++
        Outlines.headings (dataOutlines codecs.graph listing.attributes) ++
        nodeHeadings codecs identities listing.vertices ++
        edgeHeadings codecs identities listing.edges.zipIdx := by
  have nodes : Outlines.headings (listing.vertices.map (nodeOutline codecs identities)) =
      nodeHeadings codecs identities listing.vertices := by
    rw [headings_eq_flatMap, List.flatMap_map]
    rfl
  have edges : Outlines.headings (listing.edges.mapIdx (edgeOutline codecs identities)) =
      edgeHeadings codecs identities listing.edges.zipIdx := by
    rw [headings_eq_flatMap, List.mapIdx_eq_zipIdx_map, List.flatMap_map]
    rfl
  rw [outlines, headings_append, headings_append, headings_append, Outlines.headings,
    Outline.headings, Outlines.headings, List.append_nil, graphOutlines, headings_append,
    headings_append, nodes, edges, ← List.singleton_append]
  simp only [List.append_assoc]

/-! ## The names of headings -/

theorem name_of_mem_keyOutlines {α : Type} {target : KeyTarget} {codec : Codec α}
    {heading : Heading} (member : heading ∈ Outlines.headings (keyOutlines target codec)) :
    heading.name ∈ [ElementName.key, ElementName.default] := by
  rw [headings_keyOutlines, List.mem_flatMap] at member
  obtain ⟨property, _, member⟩ := member
  rcases List.mem_cons.mp member with rfl | member
  · exact List.mem_cons_self
  · rw [defaultOutlines] at member
    split at member
    · cases member
    · rw [List.mem_singleton.mp member]
      exact List.mem_cons_of_mem _ List.mem_cons_self

theorem name_of_mem_dataOutlines {α : Type} {codec : Codec α} {owner : α}
    {heading : Heading} (member : heading ∈ Outlines.headings (dataOutlines codec owner)) :
    heading.name = ElementName.data := by
  rw [headings_dataOutlines] at member
  obtain ⟨entry, _, rfl⟩ := List.mem_map.mp member
  rfl

theorem name_of_mem_nodeHeadings {V E A : Type} {codecs : Codecs V E A}
    {identities : Identities V E} {vertices : List V} {heading : Heading}
    (member : heading ∈ nodeHeadings codecs identities vertices) :
    heading.name ∈ [ElementName.node, ElementName.data] := by
  obtain ⟨vertex, _, member⟩ := List.mem_flatMap.mp member
  rcases List.mem_cons.mp member with rfl | data
  · exact List.mem_cons_self
  · rw [name_of_mem_dataOutlines data]
    exact List.mem_cons_of_mem _ List.mem_cons_self

theorem name_of_mem_edgeHeadings {V E A : Type} [Endpoints E V] {codecs : Codecs V E A}
    {identities : Identities V E} {edges : List (E × Nat)} {heading : Heading}
    (member : heading ∈ edgeHeadings codecs identities edges) :
    heading.name ∈ [ElementName.edge, ElementName.data] := by
  obtain ⟨entry, _, member⟩ := List.mem_flatMap.mp member
  rcases List.mem_cons.mp member with rfl | data
  · exact List.mem_cons_self
  · rw [name_of_mem_dataOutlines data]
    exact List.mem_cons_of_mem _ List.mem_cons_self

/-! ## The values of headings -/

/-- Headings with other names have no values. -/
theorem headingValues_eq_nil {elementName attributeName : String} {headings : List Heading}
    (other : ∀ heading ∈ headings, elementName ≠ heading.name) :
    headingValues elementName attributeName headings = [] := by
  rw [headingValues, List.filterMap_eq_nil_iff]
  intro heading member
  exact if_neg (other heading member)

theorem headingValues_append (elementName attributeName : String) (front back : List Heading) :
    headingValues elementName attributeName (front ++ back) =
      headingValues elementName attributeName front ++
        headingValues elementName attributeName back :=
  List.filterMap_append

/-- Headings with names from a list have no values under other names. -/
theorem headingValues_of_names {elementName : String} (attributeName : String)
    {headings : List Heading} {names : List String}
    (named : ∀ heading ∈ headings, heading.name ∈ names) (other : elementName ∉ names) :
    headingValues elementName attributeName headings = [] := by
  apply headingValues_eq_nil
  rintro heading member rfl
  exact other (named heading member)

/-- The first headings of groups have the values of the groups if the others have none. -/
theorem headingValues_flatMap {α : Type} {elementName attributeName : String}
    {sources : List α} {first : α → Heading} {others : α → List Heading} {value : α → String}
    (named : ∀ source, elementName = (first source).name)
    (found : ∀ source, (first source).attributes.lookup attributeName = some (value source))
    (none : ∀ source, headingValues elementName attributeName (others source) = []) :
    headingValues elementName attributeName
        (sources.flatMap fun source => first source :: others source) =
      sources.map value := by
  rw [headingValues, List.filterMap_flatMap, List.map_eq_flatMap]
  congr 1
  funext source
  rw [List.filterMap_cons, if_pos (named source), found source]
  exact congrArg (value source :: ·) (none source)

section

variable {V E A : Type} [Endpoints E V] (codecs : Codecs V E A) (settings : WriterSettings)
  (identities : Identities V E) (listing : Listing V E A)

theorem headingValues_keyOutlines {α : Type} (target : KeyTarget) (codec : Codec α) :
    headingValues ElementName.key AttributeName.id
        (Outlines.headings (keyOutlines target codec)) =
      codec.properties.map (·.name) := by
  rw [headings_keyOutlines]
  apply headingValues_flatMap
  · intro property
    rfl
  · intro property
    rfl
  · intro property
    rw [defaultOutlines]
    cases property.defaultText? with
    | none => rfl
    | some text => rfl

omit [Endpoints E V] in
theorem headingValues_graphHeading {elementName : String} (attributeName : String)
    (other : elementName ≠ ElementName.graph) :
    headingValues elementName attributeName [graphHeading settings listing] = [] := by
  apply headingValues_eq_nil
  intro heading member
  rw [List.mem_singleton.mp member]
  exact other

theorem headingValues_dataOutlines_of_ne {elementName : String} (attributeName : String)
    (other : elementName ≠ ElementName.data) {α : Type} (codec : Codec α) (owner : α) :
    headingValues elementName attributeName (Outlines.headings (dataOutlines codec owner)) =
      [] := by
  apply headingValues_eq_nil
  intro heading member
  rw [name_of_mem_dataOutlines member]
  exact other

/-- The ids of keys are the names of all attributes. -/
theorem headingValues_key :
    headingValues ElementName.key AttributeName.id
        (Outlines.headings (outlines codecs settings identities listing)) =
      codecs.graph.properties.map (·.name) ++ codecs.vertex.properties.map (·.name) ++
        codecs.edge.properties.map (·.name) := by
  rw [headings_outlines]
  simp only [headingValues_append, headingValues_keyOutlines]
  rw [headingValues_graphHeading settings listing _ (by decide),
    headingValues_dataOutlines_of_ne _ (by decide),
    headingValues_of_names _ (fun _ => name_of_mem_nodeHeadings) (by decide),
    headingValues_of_names _ (fun _ => name_of_mem_edgeHeadings) (by decide)]
  simp

/-- The ids of nodes are those of the vertices. -/
theorem headingValues_node :
    headingValues ElementName.node AttributeName.id
        (Outlines.headings (outlines codecs settings identities listing)) =
      listing.vertices.map identities.vertex := by
  have nodes : headingValues ElementName.node AttributeName.id
      (nodeHeadings codecs identities listing.vertices) =
        listing.vertices.map identities.vertex := by
    apply headingValues_flatMap
    · intro vertex
      rfl
    · intro vertex
      rfl
    · intro vertex
      exact headingValues_dataOutlines_of_ne _ (by decide) _ _
  have keys : ∀ {α : Type} (target : KeyTarget) (codec : Codec α),
      headingValues ElementName.node AttributeName.id
        (Outlines.headings (keyOutlines target codec)) = [] := by
    intro α target codec
    exact headingValues_of_names _ (fun _ => name_of_mem_keyOutlines) (by decide)
  rw [headings_outlines]
  simp only [headingValues_append, nodes, keys]
  rw [headingValues_graphHeading settings listing _ (by decide),
    headingValues_dataOutlines_of_ne _ (by decide),
    headingValues_of_names _ (fun _ => name_of_mem_edgeHeadings) (by decide)]
  simp

/-- The references of edges to nodes are the ids of their ends. -/
theorem headingValues_edge {attributeName : String} {ends : E → V}
    (found : ∀ id edge, (edgeHeading id (identities.vertex (Endpoints.source edge))
      (identities.vertex (Endpoints.target edge))).attributes.lookup attributeName =
        some (identities.vertex (ends edge))) :
    headingValues ElementName.edge attributeName
        (Outlines.headings (outlines codecs settings identities listing)) =
      listing.edges.map fun edge => identities.vertex (ends edge) := by
  have edges : headingValues ElementName.edge attributeName
      (edgeHeadings codecs identities listing.edges.zipIdx) =
        listing.edges.map fun edge => identities.vertex (ends edge) := by
    have positioned : headingValues ElementName.edge attributeName
        (edgeHeadings codecs identities listing.edges.zipIdx) =
          listing.edges.zipIdx.map fun entry => identities.vertex (ends entry.1) := by
      apply headingValues_flatMap
      · intro entry
        rfl
      · intro entry
        exact found _ _
      · intro entry
        exact headingValues_dataOutlines_of_ne _ (by decide) _ _
    have plain : listing.edges.zipIdx.map (fun entry => identities.vertex (ends entry.1)) =
        (listing.edges.zipIdx.map Prod.fst).map fun edge => identities.vertex (ends edge) := by
      rw [List.map_map]
      rfl
    rw [positioned, plain, List.zipIdx_map_fst]
  have keys : ∀ {α : Type} (target : KeyTarget) (codec : Codec α),
      headingValues ElementName.edge attributeName
        (Outlines.headings (keyOutlines target codec)) = [] := by
    intro α target codec
    exact headingValues_of_names _ (fun _ => name_of_mem_keyOutlines) (by decide)
  rw [headings_outlines]
  simp only [headingValues_append, edges, keys]
  rw [headingValues_graphHeading settings listing _ (by decide),
    headingValues_dataOutlines_of_ne _ (by decide),
    headingValues_of_names _ (fun _ => name_of_mem_nodeHeadings) (by decide)]
  simp

theorem mem_headingValues_iff {elementName attributeName value : String}
    {headings : List Heading} :
    value ∈ headingValues elementName attributeName headings ↔
      ∃ heading ∈ headings, elementName = heading.name ∧
        heading.attributes.lookup attributeName = some value := by
  rw [headingValues, List.mem_filterMap]
  apply exists_congr
  intro heading
  apply and_congr_right
  intro _
  by_cases named : elementName = heading.name
  · rw [if_pos named, and_iff_right named]
  · simp [named]

/-- Data are written under the names of attributes. -/
theorem mem_names_of_mem_dataOutlines {α : Type} {codec : Codec α} {owner : α}
    {heading : Heading} (member : heading ∈ Outlines.headings (dataOutlines codec owner))
    {value : String} (found : heading.attributes.lookup AttributeName.key = some value) :
    value ∈ codec.properties.map (·.name) := by
  rw [headings_dataOutlines] at member
  obtain ⟨entry, written, rfl⟩ := List.mem_map.mp member
  have same : some entry.1 = some value := found
  cases same
  obtain ⟨property, listed, named⟩ := List.mem_filterMap.mp written
  obtain ⟨text, _, rfl⟩ := Option.map_eq_some_iff.mp named
  exact List.mem_map_of_mem listed

/-- The references of data to keys are to names of attributes. -/
theorem mem_of_mem_headingValues_data {value : String}
    (member : value ∈ headingValues ElementName.data AttributeName.key
      (Outlines.headings (outlines codecs settings identities listing))) :
    value ∈ codecs.graph.properties.map (·.name) ++ codecs.vertex.properties.map (·.name) ++
      codecs.edge.properties.map (·.name) := by
  have keys : ∀ {α : Type} (target : KeyTarget) (codec : Codec α),
      headingValues ElementName.data AttributeName.key
        (Outlines.headings (keyOutlines target codec)) = [] := by
    intro α target codec
    exact headingValues_of_names _ (fun _ => name_of_mem_keyOutlines) (by decide)
  rw [headings_outlines] at member
  simp only [headingValues_append, keys] at member
  rw [headingValues_graphHeading settings listing _ (by decide)] at member
  simp only [List.nil_append, List.mem_append, mem_headingValues_iff] at member
  rw [List.mem_append, List.mem_append]
  rcases member with (⟨heading, data, _, found⟩ | ⟨heading, nodes, named, found⟩) |
    ⟨heading, edges, named, found⟩
  · exact .inl (.inl (mem_names_of_mem_dataOutlines data found))
  · obtain ⟨vertex, _, member⟩ := List.mem_flatMap.mp nodes
    rcases List.mem_cons.mp member with rfl | data
    · cases (by decide : ElementName.data ≠ ElementName.node) named
    · exact .inl (.inr (mem_names_of_mem_dataOutlines data found))
  · obtain ⟨entry, _, member⟩ := List.mem_flatMap.mp edges
    rcases List.mem_cons.mp member with rfl | data
    · cases (by decide : ElementName.data ≠ ElementName.edge) named
    · exact .inr (mem_names_of_mem_dataOutlines data found)

/-- The schema wants the ids of keys to differ. -/
def keyIdentity : IdentityKey :=
  ⟨"key.id.key", ElementName.key, AttributeName.id⟩

/-- The schema wants the ids of nodes to differ. -/
def nodeIdentity : IdentityKey :=
  ⟨"node.id.key", ElementName.node, AttributeName.id⟩

/-- Data refers to a key. -/
def dataReference : IdentityReference :=
  ⟨keyIdentity.name, ElementName.data, AttributeName.key⟩

/-- An edge refers to the node that it begins at. -/
def sourceReference : IdentityReference :=
  ⟨nodeIdentity.name, ElementName.edge, AttributeName.source⟩

/-- An edge refers to the node that it ends at. -/
def targetReference : IdentityReference :=
  ⟨nodeIdentity.name, ElementName.edge, AttributeName.target⟩

/-- What the keys and references of the schema ask of the elements of a document. -/
theorem identities_graphSchema_iff (headings : List Heading) :
    ((∀ key ∈ graphSchema.keys,
        (headingValues key.element key.attributeName headings).Nodup) ∧
      ∀ reference ∈ graphSchema.references,
        ∀ key ∈ graphSchema.keys.find? (·.name = reference.refer),
          ∀ value ∈ headingValues reference.element reference.attributeName headings,
            value ∈ headingValues key.element key.attributeName headings) ↔
      ((headingValues ElementName.key AttributeName.id headings).Nodup ∧
        (headingValues ElementName.node AttributeName.id headings).Nodup) ∧
      headingValues ElementName.data AttributeName.key headings ⊆
        headingValues ElementName.key AttributeName.id headings ∧
      headingValues ElementName.edge AttributeName.source headings ⊆
        headingValues ElementName.node AttributeName.id headings ∧
      headingValues ElementName.edge AttributeName.target headings ⊆
        headingValues ElementName.node AttributeName.id headings := by
  have keys : graphSchema.keys = [keyIdentity, nodeIdentity] := rfl
  have references : graphSchema.references = [dataReference, sourceReference, targetReference] :=
    rfl
  have toKeys : [keyIdentity, nodeIdentity].find? (·.name = dataReference.refer) =
      some keyIdentity := rfl
  have fromSources : [keyIdentity, nodeIdentity].find? (·.name = sourceReference.refer) =
      some nodeIdentity := rfl
  have fromTargets : [keyIdentity, nodeIdentity].find? (·.name = targetReference.refer) =
      some nodeIdentity := rfl
  rw [keys, references]
  simp only [List.forall_mem_cons, List.not_mem_nil, IsEmpty.forall_iff, implies_true, and_true,
    toKeys, fromSources, fromTargets, Option.mem_some_iff, forall_eq']
  rfl

/-- The schema describes the namespace that documents are written in. -/
theorem targetNamespace?_graphSchema : graphSchema.targetNamespace?.map encodeUtf8 =
    some (encodeUtf8 (escape namespaceName)) := by
  have kept : escape namespaceName = namespaceName := by
    decide +kernel
  rw [kept]
  rfl

/-- A written document is valid exactly if no two attributes have one name, no two
vertices have one id, and the ends of edges have ids of vertices. -/
theorem validateWith_document_iff {type : GraphType V E A} {codecs : Codecs V E A}
    (compiled : type.compile = .ok codecs) (settings : WriterSettings)
    (identities : Identities V E) (listing : Listing V E A)
    (vertices : listing.vertexCount < UInt64.size) (edges : listing.edgeCount < UInt64.size) :
    ∃ document,
      Document.document type settings (Hooks.none V E A) identities listing = .ok document ∧
      (validateWith Resolver.embedded {} document = .ok () ↔
        (codecs.graph.properties.map (·.name) ++ codecs.vertex.properties.map (·.name) ++
          codecs.edge.properties.map (·.name)).Nodup ∧
        (listing.vertices.map identities.vertex).Nodup ∧
        ∀ edge ∈ listing.edges,
          identities.vertex (Endpoints.source edge) ∈ listing.vertices.map identities.vertex ∧
          identities.vertex (Endpoints.target edge) ∈
            listing.vertices.map identities.vertex) := by
  refine ⟨_, document_eq codecs settings identities listing compiled, ?_⟩
  have conform := conform_outlines codecs settings identities vertices edges
  have loaded : Schema.load Resolver.embedded ({} : Settings).schema = .ok graphSchema :=
    load_embedded
  have declared : graphSchema.element? ElementName.graphml =
      some { children := ["graph", "data", "key", "desc"] } := by
    decide
  have sources : headingValues ElementName.edge AttributeName.source
      (Outlines.headings (outlines codecs settings identities listing)) =
        listing.edges.map fun edge => identities.vertex (Endpoints.source edge) :=
    headingValues_edge codecs settings identities listing fun _ _ => rfl
  have targets : headingValues ElementName.edge AttributeName.target
      (Outlines.headings (outlines codecs settings identities listing)) =
        listing.edges.map fun edge => identities.vertex (Endpoints.target edge) :=
    headingValues_edge codecs settings identities listing fun _ _ => rfl
  rw [validateWith, loaded]
  change validate Resolver.embedded {} graphSchema _ = .ok () ↔ _
  rw [validate_documentItems declared rfl rfl targetNamespace?_graphSchema (by decide) (by decide)
    conform, identities_graphSchema_iff, headingValues_key, headingValues_node, sources, targets]
  constructor
  · rintro ⟨⟨keysDistinct, nodesDistinct⟩, -, fromNodes, toNodes⟩
    refine ⟨keysDistinct, nodesDistinct, ?_⟩
    intro edge listed
    exact ⟨fromNodes (List.mem_map_of_mem listed), toNodes (List.mem_map_of_mem listed)⟩
  · rintro ⟨keysDistinct, nodesDistinct, ends⟩
    refine ⟨⟨keysDistinct, nodesDistinct⟩, ?_, ?_, ?_⟩
    · intro value
      exact mem_of_mem_headingValues_data codecs settings identities listing
    · intro value member
      obtain ⟨edge, listed, rfl⟩ := List.mem_map.mp member
      exact (ends edge listed).1
    · intro value member
      obtain ⟨edge, listed, rfl⟩ := List.mem_map.mp member
      exact (ends edge listed).2

end

section

open GraphMarkup.Sample

/-- Two towns with a road between them. -/
def twoTowns : Listing Town Road Network where
  directed := true
  attributes := { label := "<&>" }
  vertices := [{ name := "a", size := 7 }, { name := "b", tags := some ["x"] }]
  edges :=
    [{ id := "r", source := { name := "a" }, target := { name := "b" }, length := unitLength }]

/-- The document of the two towns is valid. -/
theorem valid_twoTowns :
    ∃ codecs, roadGraphType.compile = .ok codecs ∧ twoTowns.vertexCount < UInt64.size ∧
      twoTowns.edgeCount < UInt64.size ∧
      ∃ document,
        Document.document roadGraphType {} (Hooks.none Town Road Network) roadIdentities
          twoTowns = .ok document ∧
        validateWith Resolver.embedded {} document = .ok () := by
  refine ⟨_, rfl, by decide, by decide, ?_⟩
  obtain ⟨document, written, valid⟩ := validateWith_document_iff
    (rfl : roadGraphType.compile = .ok _) {} roadIdentities twoTowns (by decide) (by decide)
  refine ⟨document, written, valid.mpr ⟨?_, ?_, ?_⟩⟩
  · decide
  · decide
  · decide

end

end GraphMarkup.Document
