import GraphMarkup.Proofs.Result
import GraphMarkup.Schema.Loading

/-!
# The schema of graph documents

Loading follows the references from one document to the next. The embedded
documents form a chain, and together they state the schema below.
-/

namespace GraphMarkup.Schema

open GraphMarkup.Text

/-! ## Chains of documents -/

/-- The statements of documents added to a schema in order. -/
def addAll (schema : Schema) (documents : List (String × Bytes)) : Except Error Schema :=
  documents.foldlM (fun schema entry => schema.addDocument entry.1 (statementOf entry.2)) schema

/-- Every document refers to the next one and to nothing else. -/
def IsChain (documents : List (String × Bytes)) : Prop :=
  documents.map (fun entry => (statementOf entry.2).references) =
    documents.tail.map (fun entry => [entry.1]) ++ [[]]

instance (documents : List (String × Bytes)) : Decidable (IsChain documents) :=
  inferInstanceAs (Decidable (_ = _))

theorem IsChain.tail {first second : String × Bytes} {documents : List (String × Bytes)}
    (chain : IsChain (first :: second :: documents)) :
    (statementOf first.2).references = [second.1] ∧ IsChain (second :: documents) := by
  have cells : (statementOf first.2).references :: _ = [second.1] :: _ := chain
  exact List.cons.inj cells

/-- A location that is seen for the first time is loaded. -/
theorem loadFrom_cons {resolver : Resolver} {unseen pending : List String} {location : String}
    {document : Bytes} (fresh : location ∈ unseen)
    (served : resolver.resolve location = .ok (some document)) (schema : Schema) :
    loadFrom resolver unseen (location :: pending) schema =
      schema.addDocument location (statementOf document) >>= loadFrom resolver
        (without location unseen) (pending ++ (statementOf document).references) := by
  have stated : statementAt resolver location = .ok (statementOf document) := by
    rw [statementAt, served]
    rfl
  rw [loadFrom, if_pos fresh, stated]
  dsimp only
  cases schema.addDocument location (statementOf document) with
  | error error => rfl
  | ok schema => rfl

/-- Loading adds the documents of a chain in order. -/
theorem loadFrom_chain {resolver : Resolver} {first : String × Bytes}
    {documents : List (String × Bytes)} {unseen : List String}
    (served : ∀ entry ∈ first :: documents, resolver.resolve entry.1 = .ok (some entry.2))
    (fresh : ∀ entry ∈ first :: documents, entry.1 ∈ unseen)
    (distinct : ((first :: documents).map Prod.fst).Nodup)
    (chain : IsChain (first :: documents)) (schema : Schema) :
    loadFrom resolver unseen [first.1] schema = addAll schema (first :: documents) := by
  induction documents generalizing first unseen schema with
  | nil =>
    have alone : (statementOf first.2).references = [] := by
      simpa [IsChain] using chain
    rw [loadFrom_cons (fresh _ List.mem_cons_self) (served _ List.mem_cons_self), alone,
      addAll, List.foldlM_cons]
    congr 1
    funext schema
    rw [List.nil_append, loadFrom]
    rfl
  | cons second documents ih =>
    obtain ⟨refers, chain⟩ := chain.tail
    rw [List.map_cons, List.nodup_cons] at distinct
    rw [loadFrom_cons (fresh _ List.mem_cons_self) (served _ List.mem_cons_self), refers,
      addAll, List.foldlM_cons]
    congr 1
    funext schema
    apply ih
    · exact fun entry member => served entry (List.mem_cons_of_mem _ member)
    · intro entry member
      rw [without, List.mem_filter]
      refine ⟨fresh entry (List.mem_cons_of_mem _ member), ?_⟩
      rw [decide_eq_true_eq]
      intro same
      exact distinct.1 (List.mem_map.mpr ⟨entry, member, same⟩)
    · exact distinct.2
    · exact chain

/-- The locations in a chain are among those that loading can come across. -/
theorem mem_locations_of_isChain {resolver : Resolver} {first : String × Bytes}
    {documents : List (String × Bytes)} (chain : IsChain (first :: documents))
    (served : ∀ entry ∈ first :: documents, resolver.resolve entry.1 = .ok (some entry.2)) :
    ∀ entry ∈ documents, entry.1 ∈ resolver.documents.flatMap
      fun document => (statementOf document).references := by
  induction documents generalizing first with
  | nil =>
    intro entry member
    cases member
  | cons second documents ih =>
    obtain ⟨refers, chain⟩ := chain.tail
    intro entry member
    rcases List.mem_cons.mp member with rfl | member
    · rw [List.mem_flatMap]
      refine ⟨first.2, resolver.serves _ _ (served first List.mem_cons_self), ?_⟩
      rw [refers]
      exact List.mem_cons_self
    · exact ih chain (fun other listed => served other (List.mem_cons_of_mem _ listed)) entry
        member

/-- Loading the first document of a chain adds all of them in order. -/
theorem load_chain {resolver : Resolver} {first : String × Bytes}
    {documents : List (String × Bytes)} (chain : IsChain (first :: documents))
    (distinct : ((first :: documents).map Prod.fst).Nodup)
    (served : ∀ entry ∈ first :: documents, resolver.resolve entry.1 = .ok (some entry.2)) :
    load resolver first.1 = addAll {} (first :: documents) := by
  apply loadFrom_chain served _ distinct chain
  intro entry member
  rw [locations]
  rcases List.mem_cons.mp member with rfl | member
  · exact List.mem_cons_self
  · exact List.mem_cons_of_mem _ (mem_locations_of_isChain chain served entry member)

/-! ## The embedded documents -/

/-- What the embedded documents state about graph documents. -/
def graphSchema : Schema where
  targetNamespace? := some "http://graphml.graphdrawing.org/xmlns"
  elements :=
    [("desc", { textAllowed := true }),
      ("graphml", { children := ["graph", "data", "key", "desc"] }),
      ("key", { children := ["default", "desc"], required := ["id"] }),
      ("default", { textAllowed := true }),
      ("data", { anyChildren := true, textAllowed := true, required := ["key"] }),
      ("graph",
        { children := ["locator", "hyperedge", "edge", "node", "data", "desc"]
          required := ["edgedefault"] }),
      ("node",
        { children := ["locator", "graph", "port", "data", "desc"], required := ["id"] }),
      ("port", { children := ["port", "data", "desc"], required := ["name"] }),
      ("edge", { children := ["graph", "data", "desc"], required := ["source", "target"] }),
      ("hyperedge", { children := ["graph", "endpoint", "data", "desc"] }),
      ("endpoint", { children := ["desc"], required := ["node"] }),
      ("locator", { required := ["xlink:href"] })]
  types :=
    [("graph.order.type", ⟨some "xs:NMTOKEN", ["free", "nodesfirst", "adjacencylist"]⟩),
      ("graph.nodeids.type", ⟨some "xs:NMTOKEN", ["canonical", "free"]⟩),
      ("graph.edgeids.type", ⟨some "xs:NMTOKEN", ["canonical", "free"]⟩),
      ("key.name.type", ⟨some "xs:NMTOKEN", []⟩),
      ("key.type.type",
        ⟨some "xs:NMTOKEN", ["boolean", "int", "long", "float", "double", "string"]⟩),
      ("key.for.type",
        ⟨some "xs:NMTOKEN",
          ["all", "graphml", "graph", "node", "edge", "hyperedge", "port", "endpoint"]⟩),
      ("graph.edgedefault.type", ⟨some "xs:NMTOKEN", ["directed", "undirected"]⟩),
      ("endpoint.type.type", ⟨some "xs:NMTOKEN", ["in", "out", "undir"]⟩),
      ("edge.directed.type", ⟨some "xs:boolean", []⟩)]
  attributeTypes :=
    [("parse.nodeids", "graph.nodeids.type"), ("parse.edgeids", "graph.edgeids.type"),
      ("parse.order", "graph.order.type"), ("parse.nodes", "xs:nonNegativeInteger"),
      ("parse.edges", "xs:nonNegativeInteger"),
      ("parse.maxindegree", "xs:nonNegativeInteger"),
      ("parse.maxoutdegree", "xs:nonNegativeInteger"),
      ("parse.indegree", "xs:nonNegativeInteger"),
      ("parse.outdegree", "xs:nonNegativeInteger"), ("attr.name", "key.name.type"),
      ("attr.type", "key.type.type"), ("id", "xs:NMTOKEN"), ("for", "key.for.type"),
      ("key", "xs:NMTOKEN"), ("edgedefault", "graph.edgedefault.type"),
      ("name", "xs:NMTOKEN"), ("directed", "edge.directed.type"), ("source", "xs:NMTOKEN"),
      ("target", "xs:NMTOKEN"), ("sourceport", "xs:NMTOKEN"), ("targetport", "xs:NMTOKEN"),
      ("node", "xs:NMTOKEN"), ("port", "xs:NMTOKEN"), ("type", "endpoint.type.type")]
  keys := [⟨"key.id.key", "key", "id"⟩, ⟨"node.id.key", "node", "id"⟩]
  references :=
    [⟨"key.id.key", "data", "key"⟩, ⟨"node.id.key", "edge", "source"⟩,
      ⟨"node.id.key", "edge", "target"⟩]
  documentCount := 5

/-- The embedded schema documents in the order in which they refer to each other. -/
def graphDocuments : List (String × String) :=
  [("graphml.xsd", Embedded.rootText), ("graphml-parseinfo.xsd", Embedded.parseInfoText),
    ("graphml-attributes.xsd", Embedded.attributesText),
    ("graphml-structure.xsd", Embedded.structureText), ("xlink.xsd", Embedded.linkText)]

/-- Documents form a chain and state the schema of graph documents. -/
def StateGraphSchema (documents : List (String × Bytes)) : Prop :=
  IsChain documents ∧ (addAll {} documents).toOption = some graphSchema

instance (documents : List (String × Bytes)) : Decidable (StateGraphSchema documents) :=
  inferInstanceAs (Decidable (_ ∧ _))

/-- What holds of the bytes of texts is seen from their characters. -/
theorem of_characters {Holds : List (String × Bytes) → Prop} [DecidablePred Holds]
    {texts : List (String × String)} (characters : List (String × List Char))
    (same : texts = characters.map fun entry => (entry.1, String.ofList entry.2))
    (holds : decide (Holds (characters.map fun entry =>
      (entry.1, entry.2.flatMap String.utf8EncodeChar))) = true) :
    Holds (texts.map fun entry => (entry.1, encodeUtf8 entry.2)) := by
  subst same
  rw [List.map_map]
  simpa [Function.comp_def, encodeUtf8] using of_decide_eq_true holds

set_option maxRecDepth 100000 in
theorem stateGraphSchema_graphDocuments :
    StateGraphSchema (graphDocuments.map fun entry => (entry.1, encodeUtf8 entry.2)) := by
  apply of_characters [(_, _), (_, _), (_, _), (_, _), (_, _)]
  · unfold graphDocuments Embedded.rootText Embedded.parseInfoText Embedded.attributesText
      Embedded.structureText Embedded.linkText
    rfl
  · decide +kernel

/-- The embedded documents are served under their names. -/
theorem resolve_embedded {location text : String} (listed : (location, text) ∈ graphDocuments) :
    Resolver.embedded.resolve location = .ok (some (encodeUtf8 text)) := by
  have segment : ∀ name ∈ graphDocuments.map Prod.fst, Resolver.lastSegment name = name := by
    decide +kernel
  have found : Embedded.find? location = some text := by
    simp only [graphDocuments, List.mem_cons, Prod.mk.injEq, List.not_mem_nil, or_false] at listed
    rcases listed with ⟨rfl, rfl⟩ | ⟨rfl, rfl⟩ | ⟨rfl, rfl⟩ | ⟨rfl, rfl⟩ | ⟨rfl, rfl⟩ <;> rfl
  change Except.ok ((Embedded.find? (Resolver.lastSegment location)).map encodeUtf8) = _
  rw [segment location (List.mem_map_of_mem listed), found]
  rfl

/-- The embedded documents state the schema of graph documents. -/
theorem load_embedded : load Resolver.embedded "graphml.xsd" = .ok graphSchema := by
  obtain ⟨chain, stated⟩ := stateGraphSchema_graphDocuments
  have served : ∀ entry ∈ graphDocuments.map fun entry => (entry.1, encodeUtf8 entry.2),
      Resolver.embedded.resolve entry.1 = .ok (some entry.2) := by
    intro entry member
    obtain ⟨⟨location, text⟩, listed, rfl⟩ := List.mem_map.mp member
    exact resolve_embedded listed
  have loaded : load Resolver.embedded "graphml.xsd" =
      addAll {} (graphDocuments.map fun entry => (entry.1, encodeUtf8 entry.2)) :=
    load_chain chain (by decide : (graphDocuments.map Prod.fst).Nodup) served
  rw [loaded]
  cases added : addAll {} (graphDocuments.map fun entry => (entry.1, encodeUtf8 entry.2)) with
  | error error =>
    rw [added] at stated
    cases stated
  | ok schema =>
    rw [added] at stated
    exact congrArg Except.ok (Option.some.inj stated)

end GraphMarkup.Schema
