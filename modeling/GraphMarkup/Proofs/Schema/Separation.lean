import GraphMarkup.Proofs.Schema.PieceFacts

/-!
# Declarations are read separately

Reading a schema document adds what reading its declarations one by one would add, each alone in
a document with the same root. So what a schema says about an element comes from declarations
of that element, and nothing that one declaration leaves open is taken up by another.
-/

namespace GraphMarkup.Schema

open GraphMarkup.Markup
open GraphMarkup.Text

/-! ## What schemas say about elements -/

/-- Something that the declaration of an element may say. -/
inductive Grant where
  | child (name : String)
  | anyChildren
  | text
  | required (attributeName : String)

/-- Whether a declaration says something. -/
def ElementDecl.Grants (declaration : ElementDecl) : Grant → Prop
  | .child name => name ∈ declaration.children
  | .anyChildren => declaration.anyChildren
  | .text => declaration.textAllowed
  | .required attributeName => attributeName ∈ declaration.required

/-- Whether a schema says something about an element. -/
def Allows (schema : Schema) (name : String) (grant : Grant) : Prop :=
  ((schema.element? name).getD {}).Grants grant

/-- Whether a fact says something about an element. -/
def Fact.Grants (fact : Fact) (name : String) : Grant → Prop
  | .child inner => fact = .child name inner
  | .anyChildren => fact = .anyChildren name
  | .text => fact = .element name true ∨ fact = .mixed name
  | .required attributeName => fact = .required name attributeName

theorem Fact.owner?_of_grants {fact : Fact} {name : String} {grant : Grant}
    (grants : fact.Grants name grant) : fact.owner? = some name := by
  cases grant with
  | text => rcases grants with rfl | rfl <;> rfl
  | _ =>
    cases grants
    rfl

theorem Table.find?_cons {α : Type} (name key : String) (entry : α) (table : Table α) :
    Table.find? ((name, entry) :: table) key =
      if key = name then some entry else Table.find? table key := by
  rw [find?, List.lookup_cons]
  by_cases same : key = name
  · simp [same]
  · rw [beq_false_of_ne same, if_neg same]
    rfl

theorem Table.find?_update {α : Type} (table : Table α) (name key : String) (first : α)
    (change : α → α) :
    Table.find? (Table.update table name first change) key =
      if key = name then some (change ((Table.find? table name).getD first))
      else Table.find? table key := by
  induction table with
  | nil =>
    rw [Table.update, Table.find?_cons]
    rfl
  | cons entry table ih =>
    rcases entry with ⟨other, value⟩
    rw [Table.update]
    by_cases found : other = name
    · subst found
      by_cases same : key = other <;> simp [Table.find?_cons, same]
    · rw [if_neg found, Table.find?_cons, ih, Table.find?_cons, Table.find?_cons]
      by_cases same : key = other
      · simp [same, found]
      · simp [same, Ne.symm found]

/-- A change to the declaration of an element concerns no other element. -/
theorem allows_updateElement {schema : Schema} {fact : Fact} {owner name : String}
    {change : ElementDecl → ElementDecl} {grant : Grant} (owned : fact.owner? = some owner)
    (changes : ∀ declaration,
      (change declaration).Grants grant ↔ declaration.Grants grant ∨ fact.Grants owner grant) :
    (schema.updateElement owner change).Allows name grant ↔
      schema.Allows name grant ∨ fact.Grants name grant := by
  rw [Allows, element?, updateElement, Table.find?_update]
  by_cases same : name = owner
  · subst same
    rw [if_pos rfl]
    exact changes _
  · have other : ¬fact.Grants name grant := by
      intro grants
      have named := Fact.owner?_of_grants grants
      exact same (Option.some.inj (named.symm.trans owned))
    rw [if_neg same]
    exact (or_iff_left other).symm

/-- A fact is added, and the schema says what it said before and what the fact says. -/
theorem add_of_plain (schema : Schema) {fact : Fact} (plain : fact.isNamespace = false) :
    ∃ extended, schema.add fact = .ok extended ∧
      extended.targetNamespace? = schema.targetNamespace? ∧
      ∀ name grant, extended.Allows name grant ↔
        schema.Allows name grant ∨ fact.Grants name grant := by
  have unowned : fact.owner? = none → ∀ name grant,
      schema.Allows name grant ↔ schema.Allows name grant ∨ fact.Grants name grant := by
    intro none name grant
    refine (or_iff_left ?_).symm
    intro grants
    cases none.symm.trans (Fact.owner?_of_grants grants)
  cases fact with
  | targetNamespace name? => cases plain
  | element owner hasType =>
    refine ⟨_, rfl, rfl, fun name grant => allows_updateElement rfl fun declaration => ?_⟩
    cases grant <;> simp [ElementDecl.Grants, Fact.Grants]
  | child owner inner =>
    refine ⟨_, rfl, rfl, fun name grant => allows_updateElement rfl fun declaration => ?_⟩
    cases grant <;> simp [ElementDecl.Grants, Fact.Grants, or_comm, eq_comm (α := String)]
  | anyChildren owner =>
    refine ⟨_, rfl, rfl, fun name grant => allows_updateElement rfl fun declaration => ?_⟩
    cases grant <;> simp [ElementDecl.Grants, Fact.Grants]
  | mixed owner =>
    refine ⟨_, rfl, rfl, fun name grant => allows_updateElement rfl fun declaration => ?_⟩
    cases grant <;> simp [ElementDecl.Grants, Fact.Grants]
  | required owner attributeName =>
    refine ⟨_, rfl, rfl, fun name grant => allows_updateElement rfl fun declaration => ?_⟩
    cases grant <;> simp [ElementDecl.Grants, Fact.Grants, eq_comm (α := String)]
  | _ => exact ⟨_, rfl, rfl, unowned rfl⟩

/-- Facts are added, and the schema says what it said before and what the facts say. -/
theorem foldlM_add_of_plain {facts : List Fact}
    (plain : ∀ fact ∈ facts, fact.isNamespace = false) (schema : Schema) :
    ∃ extended, facts.foldlM add schema = .ok extended ∧
      extended.targetNamespace? = schema.targetNamespace? ∧
      ∀ name grant, extended.Allows name grant ↔
        schema.Allows name grant ∨ ∃ fact ∈ facts, fact.Grants name grant := by
  induction facts generalizing schema with
  | nil => exact ⟨schema, rfl, rfl, by simp⟩
  | cons fact facts ih =>
    rw [List.forall_mem_cons] at plain
    obtain ⟨middle, first, namespaceKept, allowed⟩ := add_of_plain schema plain.1
    obtain ⟨extended, more, namespaceKept', allowed'⟩ := ih plain.2 middle
    refine ⟨extended, ?_, namespaceKept'.trans namespaceKept, ?_⟩
    · rw [List.foldlM_cons, first]
      exact more
    · intro name grant
      simp [allowed', allowed, or_assoc]

/-! ## Documents -/

/-- What stands around the declarations of a schema document: its root, and what may stand in front
of it and behind it. A byte order mark may stand in front of everything. -/
structure Envelope where
  marked : Bool
  front : List Leaf
  root : Tag
  /-- Whether the root is one tag where nothing stands in it. -/
  short : Bool
  /-- What stands behind the name in the end tag of the root. -/
  gap : Bytes
  back : List Leaf

/-- The mark in front of a document. -/
def byteOrderMark : Bytes :=
  [0xEF, 0xBB, 0xBF]

namespace Envelope

/-- The root with some content. -/
def rootPiece (envelope : Envelope) (content : List Piece) : Piece :=
  if envelope.short && content.isEmpty then .empty envelope.root
  else .element envelope.root envelope.gap content

/-- The pieces of a document with some content in its root. -/
def pieces (envelope : Envelope) (content : List Piece) : List Piece :=
  envelope.front.map .leaf ++ envelope.rootPiece content :: envelope.back.map .leaf

/-- The document with some content in its root. -/
def document (envelope : Envelope) (content : List Piece) : Bytes :=
  (if envelope.marked then byteOrderMark else []) ++ Pieces.spelling (envelope.pieces content)

/-- The root is that of a schema. What stands in front of it does not look like a byte order
mark. -/
structure IsSpelled (envelope : Envelope) : Prop where
  root : (Piece.element envelope.root envelope.gap []).IsSpelled
  pieces : Pieces.AreSpelled (envelope.pieces [])
  unmarked : ¬byteOrderMark <+: Pieces.spelling (envelope.front.map .leaf)
  wellFormed : (bare envelope.root).WellFormed
  named : (bare envelope.root).name = "schema"

instance (envelope : Envelope) : Decidable envelope.IsSpelled :=
  decidable_of_iff
    ((Piece.element envelope.root envelope.gap []).IsSpelled ∧
      Pieces.AreSpelled (envelope.pieces []) ∧
      ¬byteOrderMark <+: Pieces.spelling (envelope.front.map .leaf) ∧
      (bare envelope.root).WellFormed ∧ (bare envelope.root).name = "schema")
    ⟨fun ⟨root, pieces, unmarked, wellFormed, named⟩ =>
      ⟨root, pieces, unmarked, wellFormed, named⟩,
    fun ⟨root, pieces, unmarked, wellFormed, named⟩ =>
      ⟨root, pieces, unmarked, wellFormed, named⟩⟩

/-- What the root of a document says about the namespace. -/
def namespaceFact (envelope : Envelope) : Fact :=
  .targetNamespace (.ok ((bare envelope.root).attribute? "targetNamespace"))

end Envelope

theorem statedByAll_append {context middle behind : Context} {front back : List Piece}
    {facts more : List Fact} (first : statedByAll context front = .ok (facts, middle))
    (second : statedByAll middle back = .ok (more, behind)) :
    statedByAll context (front ++ back) = .ok (facts ++ more, behind) := by
  induction front generalizing context facts with
  | nil =>
    cases first
    exact second
  | cons piece front ih =>
    obtain ⟨⟨inner, between⟩, stated, first⟩ := bind_eq_ok_iff.mp first
    obtain ⟨⟨outer, last⟩, rest, first⟩ := bind_eq_ok_iff.mp first
    cases first
    rw [List.cons_append, statedByAll, stated]
    simp only [bind, Except.bind, ih rest, List.append_assoc]
    rfl

/-- What stands between tags states nothing. -/
theorem statedByAll_leaves (context : Context) (leaves : List Leaf) :
    statedByAll context (leaves.map .leaf) = .ok ([], context) := by
  induction leaves with
  | nil => rfl
  | cons leaf leaves ih =>
    rw [List.map_cons, statedByAll]
    simp only [statedBy, bind, Except.bind, pure, Except.pure, ih]
    rfl

namespace Envelope

variable {envelope : Envelope} {content : List Piece}

theorem isText_rootPiece (envelope : Envelope) (content : List Piece) :
    (envelope.rootPiece content).isText = false := by
  rw [rootPiece]
  split <;> rfl

theorem isSpelled_rootPiece (spelled : envelope.IsSpelled)
    (contentSpelled : Pieces.AreSpelled content) : (envelope.rootPiece content).IsSpelled := by
  obtain ⟨named, unslashed, blank, -⟩ := spelled.root
  rw [rootPiece]
  split
  · exact named
  · exact ⟨named, unslashed, blank, contentSpelled⟩

/-- A root states the same whether it is one tag or two. -/
theorem statedBy_rootPiece (envelope : Envelope) (content : List Piece) (context : Context) :
    statedBy context (envelope.rootPiece content) =
      statedBy context (.element envelope.root envelope.gap content) := by
  rw [rootPiece]
  by_cases short : (envelope.short && content.isEmpty) = true
  · have none : content = [] := List.isEmpty_iff.mp (Bool.and_eq_true_iff.mp short).2
    rw [if_pos short, none, statedBy_empty context envelope.root envelope.gap]
  · rw [if_neg short]

/-- Without its mark a document consists of its pieces. -/
theorem withoutByteOrderMark_document (spelled : envelope.IsSpelled) (content : List Piece) :
    withoutByteOrderMark (envelope.document content) =
      Pieces.spelling (envelope.pieces content) := by
  change (dropPrefix? byteOrderMark (envelope.document content)).getD _ = _
  rw [document]
  cases marked : envelope.marked with
  | true =>
    have found : dropPrefix? byteOrderMark
        (byteOrderMark ++ Pieces.spelling (envelope.pieces content)) =
          some (Pieces.spelling (envelope.pieces content)) :=
      dropPrefix?_eq_some_iff.mpr rfl
    rw [if_pos rfl, found]
    rfl
  | false =>
    have missed : dropPrefix? byteOrderMark (Pieces.spelling (envelope.pieces content)) = none := by
      rw [Option.eq_none_iff_forall_ne_some]
      intro rest found
      have whole : byteOrderMark <+: Pieces.spelling (envelope.pieces content) :=
        ⟨rest, (dropPrefix?_eq_some_iff.mp found).symm⟩
      rw [pieces, Pieces.spelling_append] at whole
      rcases List.prefix_or_prefix_of_prefix whole (List.prefix_append _ _) with inFront | short
      · exact spelled.unmarked inFront
      -- The mark would go on with the bracket of the root.
      · obtain ⟨mark, same⟩ := short
        rw [← same, List.prefix_append_right_inj] at whole
        cases mark with
        | nil =>
          rw [List.append_nil] at same
          exact spelled.unmarked (same ▸ List.prefix_rfl)
        | cons first mark =>
          obtain ⟨rest, whole⟩ := whole
          have bracket : first = byteOf '<' := by
            apply Piece.beginsMarkup (envelope.isText_rootPiece content)
              (Pieces.spelling (envelope.back.map .leaf)) first
            rw [← Pieces.spelling, ← whole]
            rfl
          have member : first ∈ byteOrderMark := by
            rw [← same]
            exact List.mem_append_right _ List.mem_cons_self
          rw [bracket] at member
          exact absurd member (by decide)
    rw [if_neg Bool.false_ne_true, List.nil_append, missed]
    rfl

/-- The root of a document says its namespace, and then what its content says. -/
theorem statedBy_root (spelled : envelope.IsSpelled) (fits : AreContent content) :
    statedBy {} (.element envelope.root envelope.gap content) =
      .ok (envelope.namespaceFact :: content.flatMap factsOf, {}) := by
  obtain ⟨name, decoded⟩ := spelled.wellFormed.named
  have named : name = "schema" := (shownName_eq_of_decodeUtf8_eq decoded).symm.trans spelled.named
  subst named
  have decoded' : decodeUtf8 (localName envelope.root.name) = .ok "schema" := decoded
  have opened : openTag "schema" envelope.root {} = .ok ([envelope.namespaceFact], {}) := by
    rw [namespaceFact, ← attributeText?_of_wellFormed spelled.wellFormed]
    rfl
  have entered : enterTag envelope.root {} = .ok ([envelope.namespaceFact], topContext) := by
    rw [enterTag, decoded']
    simp only [mapError_ok, bind, Except.bind, opened]
    rfl
  rw [statedBy, entered]
  simp only [bind, Except.bind, statedByAll_topContext fits]
  rw [show closeTag topContext = ([], {}) from rfl, List.append_nil]
  rfl

/-- A document states its namespace, and then what its declarations state. -/
theorem statementOf_document (spelled : envelope.IsSpelled)
    (contentSpelled : Pieces.AreSpelled content) (fits : AreContent content) :
    statementOf (envelope.document content) =
      ⟨envelope.namespaceFact :: content.flatMap factsOf, none⟩ := by
  have stated : statedByAll {} (envelope.pieces content) =
      .ok ([] ++ (envelope.namespaceFact :: content.flatMap factsOf ++ []), {}) := by
    refine statedByAll_append (statedByAll_leaves {} envelope.front) ?_
    rw [statedByAll, statedBy_rootPiece, statedBy_root spelled fits]
    simp only [bind, Except.bind, statedByAll_leaves]
    rfl
  have pieces : Pieces.AreSpelled (envelope.pieces content) :=
    Pieces.areSpelled_replace spelled.pieces (isSpelled_rootPiece spelled contentSpelled)
      (envelope.isText_rootPiece content)
  have scanned := Pieces.scanFrom_spelling pieces beginsMarkup_nil 0 []
  rw [List.append_nil, scanFrom] at scanned
  rw [statementOf, scan, withoutByteOrderMark_document spelled, scanned,
    statementFrom_traces stated, statementFrom, List.append_nil, List.nil_append]
  simp [Statement.after]

end Envelope

/-! ## One declaration after the other -/

/-- The declarations among pieces; whatever stands between them is left out. -/
def declarations (content : List Piece) : List Piece :=
  content.filter fun piece => (tag? piece).isSome

/-- What a document states that holds one declaration. -/
def Envelope.alone (envelope : Envelope) (declaration : Piece) : Statement :=
  statementOf (envelope.document [declaration])

/-- Reading goes from one context to another over a piece, whatever stands behind it. -/
def Leads (piece : Piece) (context : Context) (facts : List Fact) (behind : Context) : Prop :=
  ∀ (start : Nat) (opened : List Bytes) (rest : Bytes),
    statementFrom context (scanFrom start opened (piece.spelling ++ rest)) =
      (statementFrom behind (scanFrom (start + piece.spelling.length) opened rest)).after facts

theorem leads_of_statedBy {piece : Piece} {tag : Tag} (tagged : tag? piece = some tag)
    (spelled : piece.IsSpelled) {context behind : Context} {facts : List Fact}
    (stated : statedBy context piece = .ok (facts, behind)) :
    Leads piece context facts behind := by
  intro start opened rest
  have other : piece.isText = false := by
    cases piece with
    | leaf between => cases tagged
    | _ => rfl
  rw [Piece.scanFrom_spelling spelled (fun text => by rw [other] at text; cases text),
    statementFrom_trace stated]

theorem flatMap_declarations (content : List Piece) :
    (declarations content).flatMap factsOf = content.flatMap factsOf := by
  induction content with
  | nil => rfl
  | cons piece content ih =>
    rw [declarations] at ih ⊢
    cases piece with
    | leaf between =>
      rw [List.filter_cons_of_neg (by simp [tag?]), ih]
      rfl
    | _ => rw [List.filter_cons_of_pos rfl, List.flatMap_cons, ih, List.flatMap_cons]

theorem addStatement_of_sound (schema : Schema) (facts : List Fact) :
    schema.addStatement ⟨facts, none⟩ = facts.foldlM add schema := by
  rw [addStatement]
  cases facts.foldlM add schema <;> rfl

theorem isContent_of_mem {pieces : List Piece} (fits : AreContent pieces) {piece : Piece}
    (member : piece ∈ pieces) : IsContent piece := by
  induction pieces with
  | nil => cases member
  | cons first pieces ih =>
    rcases List.mem_cons.mp member with rfl | member
    · exact fits.1
    · exact ih fits.2 member

namespace Envelope

variable {envelope : Envelope} {content : List Piece}

theorem alone_eq (spelled : envelope.IsSpelled) {declaration : Piece}
    (pieceSpelled : declaration.IsSpelled) (fits : IsContent declaration) :
    envelope.alone declaration = ⟨envelope.namespaceFact :: factsOf declaration, none⟩ := by
  have single : Pieces.AreSpelled [declaration] := by
    refine ⟨pieceSpelled, fun _ => ?_, trivial⟩
    rintro next ⟨⟩
  rw [alone, statementOf_document spelled single ⟨fits, trivial⟩, List.flatMap_singleton]

/-- The namespace of a document counts once. -/
theorem add_namespaceFact (envelope : Envelope) (schema : Schema) :
    ∃ named, schema.add envelope.namespaceFact = .ok named ∧
      (∀ name grant, named.Allows name grant ↔ schema.Allows name grant) ∧
      ∀ later : Schema, later.targetNamespace? = named.targetNamespace? →
        later.add envelope.namespaceFact = .ok later := by
  cases known : schema.targetNamespace? with
  | some name =>
    refine ⟨schema, by simp [namespaceFact, add, known], fun _ _ => Iff.rfl, ?_⟩
    intro later same
    simp [namespaceFact, add, same, known]
  | none =>
    refine ⟨{ schema with targetNamespace? := (bare envelope.root).attribute? "targetNamespace" },
      by simp [namespaceFact, add, known, Except.map], fun _ _ => Iff.rfl, ?_⟩
    intro later same
    cases found : (bare envelope.root).attribute? "targetNamespace" with
    | some name => simp [namespaceFact, add, same, found]
    | none =>
      rcases later with ⟨⟩
      simp_all [namespaceFact, add, Except.map]

/-- Where the namespace of a document is known, its declarations are added one by one. -/
theorem foldlM_alone (spelled : envelope.IsSpelled) {pieces : List Piece}
    (each : ∀ piece ∈ pieces, piece.IsSpelled ∧ IsContent piece) {schema : Schema}
    (named : ∀ later : Schema, later.targetNamespace? = schema.targetNamespace? →
      later.add envelope.namespaceFact = .ok later) :
    (pieces.map envelope.alone).foldlM addStatement schema =
      (pieces.flatMap factsOf).foldlM add schema := by
  induction pieces generalizing schema with
  | nil => rfl
  | cons piece pieces ih =>
    obtain ⟨⟨pieceSpelled, fits⟩, each⟩ := List.forall_mem_cons.mp each
    obtain ⟨middle, added, kept, -⟩ :=
      foldlM_add_of_plain (fun fact member => ((statedBy_topContext fits).2 fact member).2) schema
    have first : schema.addStatement (envelope.alone piece) = .ok middle := by
      rw [alone_eq spelled pieceSpelled fits, addStatement_of_sound, List.foldlM_cons,
        named schema rfl]
      exact added
    rw [List.map_cons, List.foldlM_cons, first, List.flatMap_cons, List.foldlM_append, added]
    exact ih each (kept ▸ named)

/-- A declaration that is loaded alone says what its facts say, about the element that it
declares. -/
theorem allows_alone (spelled : envelope.IsSpelled) {declaration : Piece}
    (pieceSpelled : declaration.IsSpelled) (fits : IsContent declaration) :
    ∃ single, addStatement {} (envelope.alone declaration) = .ok single ∧
      ∀ name grant, single.Allows name grant ↔
        ∃ fact ∈ factsOf declaration, fact.Grants name grant := by
  obtain ⟨named, addsNamespace, allowed, -⟩ := envelope.add_namespaceFact {}
  obtain ⟨single, added, -, allowed'⟩ :=
    foldlM_add_of_plain (fun fact member => ((statedBy_topContext fits).2 fact member).2) named
  refine ⟨single, ?_, fun name grant => ?_⟩
  · rw [alone_eq spelled pieceSpelled fits, addStatement_of_sound, List.foldlM_cons,
      addsNamespace]
    exact added
  · have nothing : ¬Allows {} name grant := by
      cases grant <;> simp [Allows, element?, Table.find?, ElementDecl.Grants]
    rw [allowed', allowed, or_iff_right nothing]

theorem each_declaration (contentSpelled : Pieces.AreSpelled content) (fits : AreContent content) :
    ∀ declaration ∈ declarations content, declaration.IsSpelled ∧ IsContent declaration := by
  intro declaration listed
  have member := (List.mem_filter.mp listed).1
  exact ⟨Pieces.isSpelled_of_mem contentSpelled member, isContent_of_mem fits member⟩

/-- A document refers to what its declarations refer to. -/
theorem references_document (spelled : envelope.IsSpelled)
    (contentSpelled : Pieces.AreSpelled content) (fits : AreContent content) :
    (statementOf (envelope.document content)).references =
      (declarations content).flatMap (envelope.alone · |>.references) := by
  have references : ∀ declaration ∈ declarations content,
      (envelope.alone declaration).references =
        (factsOf declaration).filterMap Fact.reference? := by
    intro declaration listed
    obtain ⟨pieceSpelled, pieceFits⟩ := each_declaration contentSpelled fits declaration listed
    rw [alone_eq spelled pieceSpelled pieceFits]
    rfl
  have joined := congrArg List.flatten (List.map_congr_left references)
  rw [← List.flatMap_def, ← List.flatMap_def, ← List.filterMap_flatMap] at joined
  rw [statementOf_document spelled contentSpelled fits, ← flatMap_declarations, joined]
  rfl

/-- What the facts of a document say of an element is what declarations of this element say
alone. -/
theorem grants_iff_alone (spelled : envelope.IsSpelled)
    (contentSpelled : Pieces.AreSpelled content) (fits : AreContent content) (name : String)
    (grant : Grant) :
    (∃ fact ∈ (declarations content).flatMap factsOf, fact.Grants name grant) ↔
      ∃ declaration ∈ declarations content, PieceDeclares name declaration ∧
        ∃ single, addStatement {} (envelope.alone declaration) = .ok single ∧
          single.Allows name grant := by
  have each := each_declaration contentSpelled fits
  constructor
  · rintro ⟨fact, member, grants⟩
    obtain ⟨declaration, listed, member⟩ := List.mem_flatMap.mp member
    obtain ⟨pieceSpelled, pieceFits⟩ := each declaration listed
    obtain ⟨single, added, allowed⟩ := allows_alone spelled pieceSpelled pieceFits
    have owned := ((statedBy_topContext pieceFits).2 fact member).1
    exact ⟨declaration, listed, owned name (Fact.owner?_of_grants grants), single, added,
      (allowed name grant).mpr ⟨fact, member, grants⟩⟩
  · rintro ⟨declaration, listed, -, single, added, allows⟩
    obtain ⟨pieceSpelled, pieceFits⟩ := each declaration listed
    obtain ⟨single', added', allowed⟩ := allows_alone spelled pieceSpelled pieceFits
    cases added.symm.trans added'
    obtain ⟨fact, member, grants⟩ := (allowed name grant).mp allows
    exact ⟨fact, List.mem_flatMap.mpr ⟨declaration, listed, member⟩, grants⟩

/-- The namespace of a document comes with the first of its declarations. -/
theorem foldlM_alone_cons (spelled : envelope.IsSpelled) {pieces : List Piece}
    (each : ∀ piece ∈ pieces, piece.IsSpelled ∧ IsContent piece) (some : pieces ≠ [])
    {schema named : Schema} (adds : schema.add envelope.namespaceFact = .ok named)
    (known : named.add envelope.namespaceFact = .ok named) :
    (pieces.map envelope.alone).foldlM addStatement schema =
      (pieces.map envelope.alone).foldlM addStatement named := by
  obtain ⟨first, more, rfl⟩ := List.exists_cons_of_ne_nil some
  obtain ⟨pieceSpelled, fits⟩ := each first List.mem_cons_self
  have same : schema.addStatement (envelope.alone first) =
      named.addStatement (envelope.alone first) := by
    rw [alone_eq spelled pieceSpelled fits, addStatement_of_sound, addStatement_of_sound,
      List.foldlM_cons, List.foldlM_cons, adds, known]
  rw [List.map_cons, List.foldlM_cons, List.foldlM_cons, same]

/-- Reading a document adds its namespace and then its declarations one by one, each alone in
a document with the same root; the namespace comes with the first of them. The schema says of
an element what it said before and what declarations of this element say alone, and nothing is
pending behind a declaration, nor behind any tag that began it. -/
theorem addStatement_document (spelled : envelope.IsSpelled)
    (contentSpelled : Pieces.AreSpelled content) (fits : AreContent content) (schema : Schema) :
    ∃ loaded,
      schema.addStatement (statementOf (envelope.document content)) = .ok loaded ∧
      (statementOf (envelope.document []) :: (declarations content).map envelope.alone).foldlM
        addStatement schema = .ok loaded ∧
      (declarations content ≠ [] →
        ((declarations content).map envelope.alone).foldlM addStatement schema = .ok loaded) ∧
      (statementOf (envelope.document content)).references =
        (declarations content).flatMap (envelope.alone · |>.references) ∧
      (∀ name grant, loaded.Allows name grant ↔ schema.Allows name grant ∨
        ∃ declaration ∈ declarations content, PieceDeclares name declaration ∧
          ∃ single, addStatement {} (envelope.alone declaration) = .ok single ∧
            single.Allows name grant) ∧
      (∀ declaration ∈ declarations content,
        Leads declaration topContext (envelope.alone declaration).facts.tail topContext) ∧
      ∀ piece tag, tag? piece = some tag → piece.IsSpelled → IsContent piece →
        ∀ context, Inside context ∨ context.frames = ["schema"] → ∃ facts behind,
          Leads piece context facts behind ∧ behind.frames = context.frames ∧
            Settled (bare tag).name behind := by
  have each := each_declaration contentSpelled fits
  have plain : ∀ fact ∈ (declarations content).flatMap factsOf, fact.isNamespace = false := by
    intro fact member
    obtain ⟨piece, listed, member⟩ := List.mem_flatMap.mp member
    exact ((statedBy_topContext (each piece listed).2).2 fact member).2
  obtain ⟨named, adds, same, known⟩ := envelope.add_namespaceFact schema
  obtain ⟨loaded, addsFacts, -, allowed⟩ := foldlM_add_of_plain plain named
  have separately : ((declarations content).map envelope.alone).foldlM addStatement named =
      .ok loaded := by
    rw [foldlM_alone spelled each known]
    exact addsFacts
  refine ⟨loaded, ?_, ?_, ?_, references_document spelled contentSpelled fits, ?_, ?_, ?_⟩
  · rw [statementOf_document spelled contentSpelled fits, ← flatMap_declarations,
      addStatement_of_sound, List.foldlM_cons, adds]
    exact addsFacts
  · have root : statementOf (envelope.document []) = ⟨[envelope.namespaceFact], none⟩ :=
      statementOf_document spelled trivial trivial
    rw [List.foldlM_cons, root, addStatement_of_sound, List.foldlM_cons, adds]
    exact separately
  · intro some
    rw [foldlM_alone_cons spelled each some adds (known named rfl)]
    exact separately
  · intro name grant
    rw [allowed, same, grants_iff_alone spelled contentSpelled fits]
  · intro declaration listed
    obtain ⟨pieceSpelled, pieceFits⟩ := each declaration listed
    obtain ⟨tag, tagged⟩ := Option.isSome_iff_exists.mp (List.mem_filter.mp listed).2
    rw [alone_eq spelled pieceSpelled pieceFits]
    exact leads_of_statedBy tagged pieceSpelled (statedBy_topContext pieceFits).1
  · intro piece tag tagged pieceSpelled pieceFits context place
    obtain ⟨facts, behind, stated, passes, settled⟩ := exists_passes pieceFits place
    exact ⟨facts, behind, leads_of_statedBy tagged pieceSpelled stated, passes.frames,
      settled tag tagged⟩

end Envelope

/-- A root that names a namespace. -/
def towns : Envelope where
  marked := false
  short := false
  front := [.instruction (bytesOf "xml version=\"1.0\""), .text (bytesOf "\n")]
  root := ⟨bytesOf ("xs:schema xmlns:xs=\"http://www.w3.org/2001/XMLSchema\"" ++
    " targetNamespace=\"urn:towns\"")⟩
  gap := []
  back := []

/-- Two elements, one of which has an attribute with a type of its own and a key. -/
def townContent : List Piece :=
  [.element ⟨bytesOf "xs:element name=\"town\""⟩ []
    [.element ⟨bytesOf "xs:complexType mixed=\"true\""⟩ []
      [.element ⟨bytesOf "xs:sequence"⟩ []
        [.empty ⟨bytesOf "xs:element ref=\"street\""⟩, .empty ⟨bytesOf "xs:any"⟩],
      .element ⟨bytesOf "xs:attribute name=\"id\" use=\"required\""⟩ []
        [.element ⟨bytesOf "xs:simpleType"⟩ (bytesOf " ")
          [.empty ⟨bytesOf "xs:restriction base=\"xs:NMTOKEN\""⟩]]],
    .element ⟨bytesOf "xs:key name=\"street.key\""⟩ []
      [.empty ⟨bytesOf "xs:selector xpath=\".//street\""⟩,
      .empty ⟨bytesOf "xs:field xpath=\"@id\""⟩]],
  .leaf (.comment (bytesOf " no content ")),
  .empty ⟨bytesOf "xs:element name=\"street\""⟩]

theorem addStatement_townContent :
    towns.IsSpelled ∧ Pieces.AreSpelled townContent ∧ AreContent townContent ∧
      ∃ loaded, addStatement {} (statementOf (towns.document townContent)) = .ok loaded ∧
        ((declarations townContent).map towns.alone).foldlM addStatement {} = .ok loaded := by
  have spelled : towns.IsSpelled := by
    decide +kernel
  have contentSpelled : Pieces.AreSpelled townContent := by
    decide +kernel
  have fits : AreContent townContent := by
    decide +kernel
  obtain ⟨loaded, loads, -, separately, -⟩ :=
    Envelope.addStatement_document spelled contentSpelled fits {}
  exact ⟨spelled, contentSpelled, fits, loaded, loads, separately (by simp [declarations,
    townContent, tag?])⟩

/-- Without declarations there is still the namespace of the root. -/
theorem addStatement_noContent :
    towns.IsSpelled ∧ Pieces.AreSpelled [] ∧ AreContent [] ∧
      addStatement {} (statementOf (towns.document [])) =
        .ok { targetNamespace? := some "urn:towns" } ∧
      ((declarations []).map towns.alone).foldlM addStatement {} = .ok {} ∧
      addStatement {} (statementOf (towns.document [])) ≠
        ((declarations []).map towns.alone).foldlM addStatement {} := by
  decide +kernel

end GraphMarkup.Schema
