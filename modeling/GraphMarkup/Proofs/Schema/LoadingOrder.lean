import GraphMarkup.Proofs.Result
import GraphMarkup.Proofs.Schema.BreadthFirst
import GraphMarkup.Schema.Loading

/-!
# The order of loading

Loading asks for every location that is reached from the root, in breadth-first order and each
once, until one of them has no document or a faulty one. The loop below keeps a queue and a record
of the locations that were asked for; it ends with what loading gives, whatever cycles the
references form.
-/

namespace GraphMarkup.Schema

open GraphMarkup.Text
open GraphMarkup.Validation

/-! ## Faults in documents -/

/-- A fact gives a schema its namespace. -/
def Fact.namesTarget : Fact → Bool
  | .targetNamespace (.ok (some _)) => true
  | _ => false

/-- The fault in a fact. The namespace is read only while none is known. -/
def Fact.fault? (named : Bool) : Fact → Option DocumentFault
  | .targetNamespace (.error fault) => if named then none else some fault
  | _ => none

/-- The first fault in facts, which are added to a schema that has a namespace or not. -/
def firstFault? (named : Bool) : List Fact → Option DocumentFault
  | [] => none
  | fact :: facts => (fact.fault? named).or (firstFault? (named || fact.namesTarget) facts)

/-- A document gives a schema its namespace. -/
def Statement.namesTarget (statement : Statement) : Bool :=
  statement.facts.any Fact.namesTarget

/-- The first fault in a document that is added to a schema with or without a namespace. -/
def Statement.faultIn? (named : Bool) (statement : Statement) : Option DocumentFault :=
  (firstFault? named statement.facts).or statement.fault?

/-- A schema has a namespace. -/
def isNamed (schema : Schema) : Bool :=
  schema.targetNamespace?.isSome

/-- What adding facts does to a schema: it may get a namespace, and has no more documents. -/
structure Extends (schema extended : Schema) (named : Bool) : Prop where
  isNamed : extended.isNamed = (schema.isNamed || named)
  documentCount : extended.documentCount = schema.documentCount

theorem Extends.trans {schema middle extended : Schema} {first second : Bool}
    (front : Extends schema middle first) (back : Extends middle extended second) :
    Extends schema extended (first || second) where
  isNamed := by rw [back.isNamed, front.isNamed, Bool.or_assoc]
  documentCount := back.documentCount.trans front.documentCount

/-- A fact is added, or it has a fault. -/
theorem add_cases (schema : Schema) (fact : Fact) :
    (∃ fault, fact.fault? schema.isNamed = some fault ∧ schema.add fact = .error fault) ∨
      (fact.fault? schema.isNamed = none ∧
        ∃ extended, schema.add fact = .ok extended ∧ Extends schema extended fact.namesTarget) := by
  cases fact with
  | targetNamespace name? =>
    cases known : schema.targetNamespace? with
    | some namespaceName =>
      refine .inr ⟨?_, schema, ?_, ?_⟩
      · cases name? <;> simp [Fact.fault?, isNamed, known]
      · simp [add, known]
      · exact ⟨by simp [isNamed, known], rfl⟩
    | none =>
      cases name? with
      | error fault =>
        exact .inl ⟨fault, by simp [Fact.fault?, isNamed, known], by simp [add, known, Except.map]⟩
      | ok name? =>
        refine .inr ⟨rfl, _, by rw [add, known]; rfl, ?_⟩
        cases name? <;> exact ⟨by simp [isNamed, known, Fact.namesTarget], rfl⟩
  | _ =>
    exact .inr ⟨rfl, _, rfl, by simp [Fact.namesTarget, isNamed, updateElement, updateType], rfl⟩

/-- Facts are added in order up to the first fault. -/
theorem foldlM_add_cases (facts : List Fact) (schema : Schema) :
    (∃ fault, firstFault? schema.isNamed facts = some fault ∧
        facts.foldlM add schema = .error fault) ∨
      (firstFault? schema.isNamed facts = none ∧
        ∃ extended, facts.foldlM add schema = .ok extended ∧
          Extends schema extended (facts.any Fact.namesTarget)) := by
  induction facts generalizing schema with
  | nil => exact .inr ⟨rfl, schema, rfl, by simp, rfl⟩
  | cons fact facts ih =>
    rw [List.foldlM_cons, firstFault?]
    rcases add_cases schema fact with ⟨fault, found, fails⟩ | ⟨sound, middle, added, front⟩
    · exact .inl ⟨fault, by rw [found]; rfl, by rw [fails]; rfl⟩
    · rw [sound, Option.none_or, ← front.isNamed, added]
      rcases ih middle with ⟨fault, found, fails⟩ | ⟨sound, extended, added, back⟩
      · exact .inl ⟨fault, found, fails⟩
      · exact .inr ⟨sound, extended, added, front.trans back⟩

/-- A document is added, or it has a fault. -/
theorem addDocument_cases (schema : Schema) (location : String) (statement : Statement) :
    (∃ fault, statement.faultIn? schema.isNamed = some fault ∧
        schema.addDocument location statement =
          .error (.validation (.schema (.faulty location fault)))) ∨
      (statement.faultIn? schema.isNamed = none ∧
        ∃ extended, schema.addDocument location statement = .ok extended ∧
          extended.isNamed = (schema.isNamed || statement.namesTarget) ∧
          extended.documentCount = schema.documentCount + 1) := by
  rw [addDocument, addStatement, Statement.faultIn?]
  rcases foldlM_add_cases statement.facts schema with
    ⟨fault, found, fails⟩ | ⟨sound, extended, added, extends_⟩
  · exact .inl ⟨fault, by rw [found]; rfl, by rw [fails]; rfl⟩
  · rw [sound, Option.none_or, added]
    cases statement.fault? with
    | some fault => exact .inl ⟨fault, rfl, rfl⟩
    | none =>
      exact .inr ⟨rfl, _, rfl, extends_.isNamed, congrArg (· + 1) extends_.documentCount⟩

/-- A document that is not added has a fault. -/
theorem faultIn?_of_addDocument_error {schema : Schema} {location : String}
    {statement : Statement} {error : Error}
    (fails : schema.addDocument location statement = .error error) :
    ∃ fault, statement.faultIn? schema.isNamed = some fault ∧
      error = .validation (.schema (.faulty location fault)) := by
  rcases addDocument_cases schema location statement with
    ⟨fault, found, same⟩ | ⟨-, extended, added, -⟩
  · exact ⟨fault, found, Except.error.inj (fails.symm.trans same)⟩
  · cases fails.symm.trans added

/-- A document that is added has none. -/
theorem faultIn?_of_addDocument_ok {schema extended : Schema} {location : String}
    {statement : Statement} (added : schema.addDocument location statement = .ok extended) :
    statement.faultIn? schema.isNamed = none ∧
      extended.isNamed = (schema.isNamed || statement.namesTarget) ∧
      extended.documentCount = schema.documentCount + 1 := by
  rcases addDocument_cases schema location statement with
    ⟨fault, -, fails⟩ | ⟨faultless, other, same, effect⟩
  · cases fails.symm.trans added
  · cases same.symm.trans added
    exact ⟨faultless, effect⟩

/-! ## Locations -/

section

variable (resolver : Resolver)

/-- The document at a location. -/
def servedAt? (location : String) : Option Bytes :=
  match resolver.resolve location with
  | .ok document? => document?
  | .error _ => none

/-- The locations that the document at a location refers to. -/
def referencesAt (location : String) : List String :=
  match servedAt? resolver location with
  | some document => (statementOf document).references
  | none => []

/-- Some document at the locations gives a schema its namespace. -/
def nameTarget (locations : List String) : Bool :=
  locations.any fun location =>
    (servedAt? resolver location).any fun document => (statementOf document).namesTarget

/-- Why a location cannot be loaded behind others: it has no document, or a faulty one. -/
def problem? (before : List String) (location : String) : Option SchemaError :=
  match servedAt? resolver location with
  | none => some (.unresolved location)
  | some document =>
      ((statementOf document).faultIn? (nameTarget resolver before)).map (.faulty location)

variable {resolver} in
theorem problem?_of_served {before : List String} {location : String} {document : Bytes}
    (served : servedAt? resolver location = some document) :
    problem? resolver before location =
      ((statementOf document).faultIn? (nameTarget resolver before)).map (.faulty location) := by
  rw [problem?, served]

variable {resolver} in
/-- A problem tells the location that has it. -/
theorem names_of_problem? {before : List String} {location : String} {problem : SchemaError}
    (found : problem? resolver before location = some problem) :
    problem = .unresolved location ∨ ∃ fault, problem = .faulty location fault := by
  rw [problem?] at found
  split at found
  · exact .inl (Option.some.inj found).symm
  · obtain ⟨fault, -, same⟩ := Option.map_eq_some_iff.mp found
    exact .inr ⟨fault, same.symm⟩

/-- Each of some locations has a document without a fault when its turn comes. -/
def AllLoad (locations : List String) : Prop :=
  ∀ before location behind, locations = before ++ location :: behind →
    ∃ document, servedAt? resolver location = some document ∧
      (statementOf document).faultIn? (nameTarget resolver before) = none

/-- What a location reaches is among the locations that loading can come across. -/
theorem mem_locations_of_reaches {root location : String}
    (reached : Reaches (referencesAt resolver) root location) :
    location ∈ locations resolver root := by
  cases reached with
  | refl => exact List.mem_cons_self
  | @tail source _ _ refers =>
    rw [referencesAt] at refers
    split at refers
    · rename_i document served
      have listed : document ∈ resolver.documents := by
        rw [servedAt?] at served
        split at served
        · rename_i document? answer
          exact resolver.serves source document (served ▸ answer)
        · cases served
      exact List.mem_cons_of_mem _ (List.mem_flatMap.mpr ⟨document, listed, refers⟩)
    · cases refers

variable {resolver}

theorem AllLoad.nil : AllLoad resolver [] := by
  intro before location behind split
  simp at split

theorem AllLoad.concat {locations : List String} {location : String} {document : Bytes}
    (allLoad : AllLoad resolver locations)
    (served : servedAt? resolver location = some document)
    (sound : (statementOf document).faultIn? (nameTarget resolver locations) = none) :
    AllLoad resolver (locations ++ [location]) := by
  intro before other behind split
  rcases List.eq_nil_or_concat behind with rfl | ⟨behind, last, rfl⟩
  · obtain ⟨rfl, same⟩ := List.append_inj' split rfl
    cases same
    exact ⟨document, served, sound⟩
  · rw [List.concat_eq_append, ← List.cons_append, ← List.append_assoc] at split
    obtain ⟨same, -⟩ := List.append_inj' split rfl
    exact allLoad before other behind same

/-! ## The loop -/

/-- Loading between two rounds: the queue, the locations that the resolver was asked for, in
order, and what is known. -/
structure LoadState where
  pending : List String
  asked : List String
  schema : Schema

/-- How a round ends: there is another one, or loading is over. -/
inductive Round where
  | more (state : LoadState)
  | over (asked : List String) (result : Except Error Schema)

/-- The first pending location is asked for, unless it was before; what its document refers to
joins the queue. -/
def LoadState.round (resolver : Resolver) (state : LoadState) : Round :=
  match state.pending with
  | [] => .over state.asked (.ok state.schema)
  | location :: pending =>
      if location ∈ state.asked then .more { state with pending := pending }
      else
        let asked := state.asked ++ [location]
        match statementAt resolver location with
        | .error error => .over asked (.error error)
        | .ok statement =>
            match state.schema.addDocument location statement with
            | .error error => .over asked (.error error)
            | .ok schema => .more ⟨pending ++ statement.references, asked, schema⟩

/-- After finitely many rounds loading is over: these locations were asked for, with this
result. -/
inductive Ends (resolver : Resolver) : LoadState → List String → Except Error Schema → Prop where
  | over {state : LoadState} {asked : List String} {result : Except Error Schema}
      (last : state.round resolver = .over asked result) : Ends resolver state asked result
  | more {state after : LoadState} {asked : List String} {result : Except Error Schema}
      (round : state.round resolver = .more after) (ends : Ends resolver after asked result) :
      Ends resolver state asked result

/-- What comes out of loading locations in order: all of them are loaded, or loading stops at the
first with a problem. -/
inductive Outcome (resolver : Resolver) (order : List String) :
    List String → Except Error Schema → Prop where
  | loaded {schema : Schema} (allLoad : AllLoad resolver order)
      (documentCount : schema.documentCount = order.length) :
      Outcome resolver order order (.ok schema)
  | stopped {before behind : List String} {location : String} {problem : SchemaError}
      (split : order = before ++ location :: behind) (allLoad : AllLoad resolver before)
      (found : problem? resolver before location = some problem) :
      Outcome resolver order (before ++ [location]) (.error (.validation (.schema problem)))

/-- What holds between two rounds. The locations that were not asked for are the unseen ones. -/
structure LoadState.Sound (resolver : Resolver) (root : String) (order unseen : List String)
    (state : LoadState) : Prop where
  explores : Explores (referencesAt resolver) root order state.asked state.pending
  within : ∀ location ∈ state.pending, location ∈ locations resolver root
  unseen : ∀ location ∈ locations resolver root,
    location ∈ unseen ↔ location ∉ state.asked
  allLoad : AllLoad resolver state.asked
  isNamed : state.schema.isNamed = nameTarget resolver state.asked
  documentCount : state.schema.documentCount = state.asked.length

namespace LoadState.Sound

variable {root : String} {order unseen pending asked : List String} {location : String}
  {schema : Schema}

theorem initial (resolver : Resolver) (root : String) (order : List String) :
    Sound resolver root order (locations resolver root) ⟨[root], [], {}⟩ where
  explores := .initial _ _ _
  within location member := by
    cases List.mem_singleton.mp member
    exact List.mem_cons_self
  unseen location known := by simp [known]
  allLoad := .nil
  isNamed := rfl
  documentCount := rfl

/-- A location that was asked for before changes nothing. -/
theorem skip (sound : Sound resolver root order unseen ⟨location :: pending, asked, schema⟩)
    (known : location ∈ asked) : Sound resolver root order unseen ⟨pending, asked, schema⟩ :=
  { sound with
    explores := sound.explores.skip known
    within := fun other member => sound.within other (List.mem_cons_of_mem _ member) }

/-- A location that was loaded is asked for no more. -/
theorem visit (sound : Sound resolver root order unseen ⟨location :: pending, asked, schema⟩)
    (breadthFirst : IsBreadthFirst (referencesAt resolver) root order)
    (fresh : location ∉ asked) {document : Bytes}
    (served : servedAt? resolver location = some document)
    (faultless : (statementOf document).faultIn? schema.isNamed = none) {extended : Schema}
    (isNamed : extended.isNamed = (schema.isNamed || (statementOf document).namesTarget))
    (documentCount : extended.documentCount = schema.documentCount + 1) :
    Sound resolver root order (without location unseen)
      ⟨pending ++ (statementOf document).references, asked ++ [location], extended⟩ where
  explores := by
    have visited := sound.explores.visit breadthFirst fresh
    rw [referencesAt, served] at visited
    exact visited
  within := by
    have inOrder : location ∈ order :=
      (sound.explores.next_isFront breadthFirst fresh).subset (List.mem_append_right _
        List.mem_cons_self)
    have reached := breadthFirst.mem_iff.mp inOrder
    rintro other member
    rcases List.mem_append.mp member with old | new
    · exact sound.within other (List.mem_cons_of_mem _ old)
    · have refers : other ∈ referencesAt resolver location := by
        rw [referencesAt, served]
        exact new
      exact mem_locations_of_reaches resolver (reached.tail refers)
  unseen other known := by
    rw [without, List.mem_filter, sound.unseen other known]
    simp
  allLoad := sound.allLoad.concat served (sound.isNamed ▸ faultless)
  isNamed := by
    rw [isNamed, sound.isNamed, nameTarget, nameTarget, List.any_append]
    simp [served]
  documentCount := by
    rw [documentCount, sound.documentCount, List.length_append]
    rfl

/-- The unseen locations are those that were not asked for. -/
theorem mem_unseen_iff
    (sound : Sound resolver root order unseen ⟨location :: pending, asked, schema⟩) :
    location ∈ unseen ↔ location ∉ asked :=
  sound.unseen location (sound.within location List.mem_cons_self)

/-- A location that is asked for is the next one of the order. -/
theorem exists_split
    (sound : Sound resolver root order unseen ⟨location :: pending, asked, schema⟩)
    (breadthFirst : IsBreadthFirst (referencesAt resolver) root order)
    (fresh : location ∉ asked) : ∃ behind, order = asked ++ location :: behind := by
  obtain ⟨behind, split⟩ := sound.explores.next_isFront breadthFirst fresh
  exact ⟨behind, by rw [← split, List.append_assoc, List.singleton_append]⟩

end LoadState.Sound

/-- A resolver that does not fail serves a document or does not know the location. -/
theorem statementAt_eq {location : String}
    (answers : ∃ document?, resolver.resolve location = .ok document?) :
    statementAt resolver location =
      match servedAt? resolver location with
      | some document => .ok (statementOf document)
      | none => .error (.validation (.schema (.unresolved location))) := by
  obtain ⟨document?, answer⟩ := answers
  rw [statementAt, servedAt?, answer]
  cases document? <;> rfl

/-- A statement comes from the document at its location. -/
theorem exists_served_of_statementAt {location : String} {statement : Statement}
    (answers : ∃ document?, resolver.resolve location = .ok document?)
    (stated : statementAt resolver location = .ok statement) :
    ∃ document, servedAt? resolver location = some document ∧
      statementOf document = statement := by
  rw [statementAt_eq answers] at stated
  split at stated
  · rename_i document served
    exact ⟨document, served, Except.ok.inj stated⟩
  · cases stated

/-- There is no statement where there is no document. -/
theorem unserved_of_statementAt {location : String} {error : Error}
    (answers : ∃ document?, resolver.resolve location = .ok document?)
    (stated : statementAt resolver location = .error error) :
    servedAt? resolver location = none ∧
      error = .validation (.schema (.unresolved location)) := by
  rw [statementAt_eq answers] at stated
  split at stated
  · cases stated
  · rename_i unserved
    exact ⟨unserved, (Except.error.inj stated).symm⟩

/-- From any state that rounds lead to, loading goes through the rest of the order. -/
theorem exists_ends_loadFrom
    (answers : ∀ location, ∃ document?, resolver.resolve location = .ok document?)
    {root : String} {order unseen pending asked : List String} {schema : Schema}
    (breadthFirst : IsBreadthFirst (referencesAt resolver) root order)
    (sound : LoadState.Sound resolver root order unseen ⟨pending, asked, schema⟩) :
    ∃ allAsked, Ends resolver ⟨pending, asked, schema⟩ allAsked
        (loadFrom resolver unseen pending schema) ∧
      Outcome resolver order allAsked (loadFrom resolver unseen pending schema) := by
  -- The induction is that of the loop: it ends because a location that is asked for leaves
  -- `unseen`, and one that was asked for before leaves the queue.
  fun_induction loadFrom resolver unseen pending schema generalizing asked with
  | case1 unseen schema =>
    have same : asked = order := sound.explores.eq_of_nil breadthFirst
    subst same
    exact ⟨asked, .over rfl, .loaded sound.allLoad sound.documentCount⟩
  | case2 unseen schema location pending inside error stated =>
    have fresh := sound.mem_unseen_iff.mp inside
    obtain ⟨behind, split⟩ := sound.exists_split breadthFirst fresh
    obtain ⟨unserved, rfl⟩ := unserved_of_statementAt (answers location) stated
    refine ⟨asked ++ [location], .over ?_, .stopped split sound.allLoad ?_⟩
    · simp [LoadState.round, fresh, stated]
    · rw [problem?, unserved]
  | case3 unseen schema location pending inside statement stated error added =>
    have fresh := sound.mem_unseen_iff.mp inside
    obtain ⟨behind, split⟩ := sound.exists_split breadthFirst fresh
    obtain ⟨document, served, rfl⟩ := exists_served_of_statementAt (answers location) stated
    obtain ⟨fault, found, rfl⟩ := faultIn?_of_addDocument_error added
    refine ⟨asked ++ [location], .over ?_, .stopped split sound.allLoad ?_⟩
    · simp [LoadState.round, fresh, stated, added]
    · rw [problem?_of_served served, ← sound.isNamed, found]
      rfl
  | case4 unseen schema location pending inside statement stated extended added ih =>
    have fresh := sound.mem_unseen_iff.mp inside
    have round : LoadState.round resolver ⟨location :: pending, asked, schema⟩ =
        .more ⟨pending ++ statement.references, asked ++ [location], extended⟩ := by
      simp [LoadState.round, fresh, stated, added]
    obtain ⟨document, served, rfl⟩ := exists_served_of_statementAt (answers location) stated
    obtain ⟨faultless, isNamed, documentCount⟩ := faultIn?_of_addDocument_ok added
    obtain ⟨allAsked, ends, outcome⟩ :=
      ih (sound.visit breadthFirst fresh served faultless isNamed documentCount)
    exact ⟨allAsked, .more round ends, outcome⟩
  | case5 unseen schema location pending outside ih =>
    have known : location ∈ asked := by
      by_contra fresh
      exact outside (sound.mem_unseen_iff.mpr fresh)
    obtain ⟨allAsked, ends, outcome⟩ := ih (sound.skip known)
    refine ⟨allAsked, .more ?_ ends, outcome⟩
    simp [LoadState.round, known]

/-! ## What loading gives -/

/-- Where all locations load there is no location with a problem. -/
theorem AllLoad.problem?_eq_none {order before behind : List String} {location : String}
    (allLoad : AllLoad resolver order) (split : order = before ++ location :: behind) :
    problem? resolver before location = none := by
  obtain ⟨document, served, faultless⟩ := allLoad before location behind split
  rw [problem?_of_served served, faultless]
  rfl

/-- Loading ends. It asks for the locations that are reached from the root in breadth-first order
and each at most once; it gives a schema exactly if all of them have documents without faults, as
many as the schema counts; and otherwise the error tells the first that has none. -/
theorem load_isBreadthFirst
    (answers : ∀ location, ∃ document?, resolver.resolve location = .ok document?)
    (root : String) :
    ∃ order asked,
      IsBreadthFirst (referencesAt resolver) root order ∧ order.Nodup ∧
      (∀ location, location ∈ order ↔ Reaches (referencesAt resolver) root location) ∧
      Ends resolver ⟨[root], [], {}⟩ asked (load resolver root) ∧ asked <+: order ∧
      ((∃ schema, load resolver root = .ok schema) ↔ AllLoad resolver order) ∧
      (∀ schema, load resolver root = .ok schema →
        asked = order ∧ schema.documentCount = order.length) ∧
      (∀ error, load resolver root = .error error →
        ∃ before location behind problem, order = before ++ location :: behind ∧
          AllLoad resolver before ∧ problem? resolver before location = some problem ∧
          (problem = .unresolved location ∨ ∃ fault, problem = .faulty location fault) ∧
          asked = before ++ [location] ∧ error = .validation (.schema problem)) := by
  obtain ⟨order, breadthFirst⟩ := exists_isBreadthFirst (referencesAt resolver) root
    fun _ => mem_locations_of_reaches resolver
  obtain ⟨asked, ends, outcome⟩ :=
    exists_ends_loadFrom answers breadthFirst (.initial resolver root order)
  rw [← load] at ends outcome
  refine ⟨order, asked, breadthFirst, breadthFirst.nodup, fun _ => breadthFirst.mem_iff, ends, ?_⟩
  generalize load resolver root = result at outcome
  cases outcome with
  | loaded allLoad documentCount =>
    refine ⟨List.prefix_refl _, ⟨fun _ => allLoad, fun _ => ⟨_, rfl⟩⟩, ?_, ?_⟩
    · rintro schema ⟨⟩
      exact ⟨rfl, documentCount⟩
    · rintro error ⟨⟩
  | @stopped before behind location problem split allLoad found =>
    refine ⟨⟨behind, by rw [split, List.append_assoc, List.singleton_append]⟩, ⟨?_, ?_⟩, ?_, ?_⟩
    · rintro ⟨schema, ⟨⟩⟩
    · intro allLoad
      rw [allLoad.problem?_eq_none split] at found
      cases found
    · rintro schema ⟨⟩
    · rintro error ⟨⟩
      exact ⟨before, location, behind, problem, split, allLoad, found, names_of_problem? found,
        rfl, rfl⟩

end

/-! ## Documents that refer to each other -/

open GraphMarkup.Markup in
/-- Documents with references in circles. The namespace of the second could not be read, but the
first has one. -/
def circularDocuments : List (String × Bytes) :=
  [("a.xsd", ["<schema", " targetNamespace='t'>", "<include", " schemaLocation='b.xsd'/>",
      "<import", " schemaLocation='c.xsd'/>", "<redefine", " schemaLocation='b.xsd'/>",
      "</schema>"].flatMap bytesOf),
    ("b.xsd", ["<schema", " targetNamespace='&t;'>", "<include", " schemaLocation='a.xsd'/>",
      "<include", " schemaLocation='b.xsd'/>", "</schema>"].flatMap bytesOf),
    ("c.xsd", ["<include", " schemaLocation='b.xsd'/>"].flatMap bytesOf)]

/-- The resolver of these documents. -/
def circular : Resolver :=
  Resolver.ofList (circularDocuments.map fun entry => (entry.1, .ok entry.2))

/-- A list of documents is a resolver that does not fail. -/
theorem ofList_answers (documents : List (String × Bytes)) (location : String) :
    ∃ document?, (Resolver.ofList (documents.map fun entry => (entry.1, .ok entry.2))).resolve
      location = .ok document? := by
  rw [Resolver.ofList]
  dsimp only
  split
  · exact ⟨none, rfl⟩
  · rename_i served found
    obtain ⟨front, back, split, -⟩ := List.lookup_eq_some_iff.mp found
    have listed : (location, served) ∈
        documents.map fun entry => (entry.1, (.ok entry.2 : Except Error Bytes)) := by
      rw [split]
      exact List.mem_append_right _ List.mem_cons_self
    obtain ⟨entry, -, same⟩ := List.mem_map.mp listed
    cases same
    exact ⟨some entry.2, rfl⟩

theorem referencesAt_circular :
    ["a.xsd", "b.xsd", "c.xsd"].map (referencesAt circular) =
      [["b.xsd", "c.xsd", "b.xsd"], ["a.xsd", "b.xsd"], ["b.xsd"]] := by
  decide +kernel

/-- The location that the root refers to last comes behind those in front, and no other follows. -/
theorem isBreadthFirst_circular :
    IsBreadthFirst (referencesAt circular) "a.xsd" ["a.xsd", "b.xsd", "c.xsd"] := by
  obtain ⟨atA, atB, atC⟩ : referencesAt circular "a.xsd" = ["b.xsd", "c.xsd", "b.xsd"] ∧
      referencesAt circular "b.xsd" = ["a.xsd", "b.xsd"] ∧
      referencesAt circular "c.xsd" = ["b.xsd"] := by
    simpa using referencesAt_circular
  have near : within (referencesAt circular) "a.xsd" 1 = ["a.xsd", "b.xsd", "c.xsd"] := by
    rw [within_succ, within_zero, List.flatMap_singleton, atA]
    decide
  have far : within (referencesAt circular) "a.xsd" 2 = ["a.xsd", "b.xsd", "c.xsd"] := by
    rw [within_succ, near, List.flatMap_cons, List.flatMap_cons, List.flatMap_singleton, atA, atB,
      atC]
    decide
  refine ⟨1, fun length less => ?_⟩
  rw [within_eq_of_le _ _ (far.trans near.symm) less, near]

theorem allLoad_circular : AllLoad circular ["a.xsd", "b.xsd", "c.xsd"] := by
  have served : circularDocuments.map (fun entry => servedAt? circular entry.1) =
      circularDocuments.map fun entry => some entry.2 := by
    decide +kernel
  obtain ⟨atA, atB, atC⟩ : servedAt? circular "a.xsd" = some circularDocuments[0].2 ∧
      servedAt? circular "b.xsd" = some circularDocuments[1].2 ∧
      servedAt? circular "c.xsd" = some circularDocuments[2].2 := by
    simpa [circularDocuments] using served
  have first : (statementOf circularDocuments[0].2).faultIn? (nameTarget circular []) = none := by
    decide +kernel
  have second : (statementOf circularDocuments[1].2).faultIn?
      (nameTarget circular ["a.xsd"]) = none := by
    decide +kernel
  have third : (statementOf circularDocuments[2].2).faultIn?
      (nameTarget circular ["a.xsd", "b.xsd"]) = none := by
    decide +kernel
  exact ((AllLoad.nil.concat atA first).concat atB second).concat atC third

/-- Circles are gone through once: three documents are asked for and loaded. -/
theorem load_circular :
    (∀ location, ∃ document?, circular.resolve location = .ok document?) ∧
      Ends circular ⟨["a.xsd"], [], {}⟩ ["a.xsd", "b.xsd", "c.xsd"] (load circular "a.xsd") ∧
      ∃ schema, load circular "a.xsd" = .ok schema ∧ schema.documentCount = 3 := by
  obtain ⟨order, asked, breadthFirst, -, -, ends, -, loads, loaded, -⟩ :=
    load_isBreadthFirst (ofList_answers circularDocuments) "a.xsd"
  change Ends circular _ _ (load circular "a.xsd") at ends
  obtain rfl : order = ["a.xsd", "b.xsd", "c.xsd"] := isBreadthFirst_circular.unique breadthFirst
  obtain ⟨schema, result⟩ := loads.mpr allLoad_circular
  obtain ⟨rfl, documentCount⟩ := loaded schema result
  exact ⟨ofList_answers circularDocuments, ends, schema, result, documentCount⟩

end GraphMarkup.Schema
