import GraphMarkup.Proofs.Markup.AttributeScan
import GraphMarkup.Proofs.Markup.Spelling
import GraphMarkup.Schema.Document

/-!
# What the pieces of a schema document state

A schema document is read tag by tag, with a context that says inside which declarations a tag
stands. A piece of the document changes the context while it lasts: behind it the context is the
one in front of it, but for what it took back. So what a declaration states does not depend on
the declarations in front of it, and concerns no element but its own.
-/

namespace GraphMarkup.Schema

open GraphMarkup.Markup
open GraphMarkup.Text

/-! ## Reading pieces -/

mutual

/-- What a piece states in a context, and the context behind it. -/
def statedBy (context : Context) : Piece → Stated
  | .element tag _ children => do
      let (facts, inside) ← enterTag tag context
      let (inner, inside) ← statedByAll inside children
      pure (facts ++ inner ++ (closeTag inside).1, (closeTag inside).2)
  | .empty tag => do
      let (facts, inside) ← enterTag tag context
      pure (facts ++ (closeTag inside).1, (closeTag inside).2)
  | .leaf _ => pure ([], context)

/-- What pieces state in a context, and the context behind them. -/
def statedByAll (context : Context) : List Piece → Stated
  | [] => pure ([], context)
  | piece :: pieces => do
      let (facts, context) ← statedBy context piece
      let (more, context) ← statedByAll context pieces
      pure (facts ++ more, context)

end

theorem statedBy_empty (context : Context) (tag : Tag) (gap : Bytes) :
    statedBy context (.empty tag) = statedBy context (.element tag gap []) := by
  rw [statedBy, statedBy]
  cases enterTag tag context with
  | error fault => rfl
  | ok entered => simp [bind, Except.bind, statedByAll, pure, Except.pure]

theorem Statement.after_append (statement : Statement) (front back : List Fact) :
    statement.after (front ++ back) = (statement.after back).after front := by
  simp [after]

mutual

/-- A document states what its first piece states, and then what stands behind the piece. -/
theorem statementFrom_trace : {piece : Piece} → {context context' : Context} →
    {facts : List Fact} → statedBy context piece = .ok (facts, context') →
    (start : Nat) → (behind : Trace Event) →
    statementFrom context (piece.trace start behind) = (statementFrom context' behind).after facts
  | .element tag _ children, context, context', facts, stated, start, behind => by
    obtain ⟨⟨front, inside⟩, entered, stated⟩ := bind_eq_ok_iff.mp stated
    obtain ⟨⟨inner, inside'⟩, content, stated⟩ := bind_eq_ok_iff.mp stated
    cases stated
    rw [Piece.trace, statementFrom, entered]
    dsimp only
    rw [statementFrom_traces content, statementFrom, Statement.after_append,
      Statement.after_append]
  | .empty tag, context, context', facts, stated, start, behind => by
    obtain ⟨⟨front, inside⟩, entered, stated⟩ := bind_eq_ok_iff.mp stated
    cases stated
    rw [Piece.trace, statementFrom, entered]
  | .leaf between, _, _, _, stated, _, _ => by
    cases stated
    cases between <;> rfl

/-- A document states what its first pieces state, and then what stands behind them. -/
theorem statementFrom_traces : {pieces : List Piece} → {context context' : Context} →
    {facts : List Fact} → statedByAll context pieces = .ok (facts, context') →
    (start : Nat) → (behind : Trace Event) →
    statementFrom context (Pieces.trace start behind pieces) =
      (statementFrom context' behind).after facts
  | [], _, _, _, stated, _, _ => by
    cases stated
    rfl
  | piece :: pieces, context, context', facts, stated, start, behind => by
    obtain ⟨⟨front, middle⟩, first, stated⟩ := bind_eq_ok_iff.mp stated
    obtain ⟨⟨back, last⟩, second, stated⟩ := bind_eq_ok_iff.mp stated
    cases stated
    rw [Pieces.trace, statementFrom_trace first, statementFrom_traces second,
      Statement.after_append]

end

/-! ## Tags -/

/-- The head of an element whose namespace does not count. -/
def bare (tag : Tag) : Element :=
  ⟨tag, .unbound⟩

/-- The values of a well-formed tag can be read. -/
theorem attributeText?_of_wellFormed {tag : Tag} (wellFormed : (bare tag).WellFormed)
    (name : String) : attributeText? tag name = .ok ((bare tag).attribute? name) := by
  have complete : (tag.attributes true).error? = none := wellFormed.complete
  rw [attributeText?, Tag.attribute?_of_complete complete, Element.attribute?, Element.attributes]
  dsimp only [bare]
  cases found : (tag.attributes true).found.find? (·.key = bytesOf name) with
  | none => rfl
  | some entry =>
    obtain ⟨value, read⟩ := wellFormed.valued entry (List.mem_of_find?_eq_some found)
    simp [read, textOf_eq_of_rawText_eq read]

/-- The element whose declaration a fact changes. -/
def Fact.owner? : Fact → Option String
  | .element name _ => some name
  | .child owner _ => some owner
  | .anyChildren owner => some owner
  | .mixed owner => some owner
  | .required owner _ => some owner
  | _ => none

/-- Whether a fact is about the namespace of the document. -/
def Fact.isNamespace : Fact → Bool
  | .targetNamespace _ => true
  | _ => false

/-- Whether a tag begins the declaration of an element. -/
def Declares (tag : Tag) (name : String) : Prop :=
  (bare tag).name = "element" ∧ (bare tag).attribute? "name" = some name

/-- What a tag that begins no schema can do, its own frame left aside: only some tags change parts
of the context, and what is stated is about the element that is being declared. -/
structure Opens (tag : Tag) (context : Context) (facts : List Fact) (inside : Context) :
    Prop where
  frames : inside.frames = context.frames
  keepsElement : (bare tag).name ≠ "element" ∨ context.frames.head? ≠ some "schema" →
    inside.element? = context.element?
  declares : ∀ owner ∈ inside.element?,
    context.element? = some owner ∨ context.frames.head? = some "schema" ∧ Declares tag owner
  keepsAttribute : (bare tag).name ≠ "attribute" → inside.attribute? = context.attribute?
  keepsType : (bare tag).name ≠ "simpleType" → inside.simpleType? = context.simpleType?
  keepsConstraint : (bare tag).name ≠ "key" → (bare tag).name ≠ "keyref" →
    context.constraint? = none → inside.constraint? = none
  owned : ∀ fact ∈ facts, ∀ owner ∈ fact.owner?,
    context.element? = some owner ∨ context.frames.head? = some "schema" ∧ Declares tag owner
  plain : ∀ fact ∈ facts, fact.isNamespace = false

section

variable {tag : Tag} {context : Context}

/-- A tag may change nothing, whatever it states about the element that is being declared. -/
theorem Opens.same {facts : List Fact}
    (owned : ∀ fact ∈ facts,
      (fact.owner? = none ∨ fact.owner? = context.element?) ∧ fact.isNamespace = false) :
    Opens tag context facts context := by
  constructor
  case owned =>
    intro fact member owner named
    rcases (owned fact member).1 with none | same
    · rw [none] at named
      cases named
    · exact .inl (same ▸ named)
  case plain => exact fun fact member => (owned fact member).2
  case declares => exact fun owner named => .inl named
  all_goals simp

theorem opens_openElement (wellFormed : (bare tag).WellFormed)
    (named : (bare tag).name = "element") (context : Context) :
    ∃ facts inside, openElement tag context = .ok (facts, inside) ∧
      Opens tag context facts inside := by
  have read := attributeText?_of_wellFormed wellFormed
  simp only [openElement, read, bind, Except.bind, pure, Except.pure]
  by_cases top : context.frames.head? = some "schema"
  · rw [if_pos top]
    cases found : (bare tag).attribute? "name" with
    | none => exact ⟨_, _, rfl, .same (by simp)⟩
    | some name =>
      refine ⟨_, _, rfl, ?_⟩
      constructor <;> simp_all [Fact.owner?, Fact.isNamespace, Declares]
  · rw [if_neg top]
    split
    · refine ⟨_, _, rfl, ?_⟩
      constructor <;> simp_all [Fact.owner?, Fact.isNamespace]
    · exact ⟨_, _, rfl, .same (by simp)⟩

/-- What an attribute states about its owner. -/
def requirement (owner? name? use? : Option String) : List Fact :=
  match owner?, name? with
  | some owner, some name => if use? = some "required" then [.required owner name] else []
  | _, _ => []

theorem of_mem_requirement {owner? name? use? : Option String} {fact : Fact}
    (member : fact ∈ requirement owner? name? use?) :
    fact.owner? = owner? ∧ fact.isNamespace = false := by
  unfold requirement at member
  split at member
  · split at member
    · rw [List.mem_singleton.mp member]
      exact ⟨rfl, rfl⟩
    · cases member
  · cases member

theorem opens_openAttribute (wellFormed : (bare tag).WellFormed)
    (named : (bare tag).name = "attribute") (context : Context) :
    ∃ facts inside, openAttribute tag context = .ok (facts, inside) ∧
      Opens tag context facts inside := by
  have read := attributeText?_of_wellFormed wellFormed
  obtain ⟨required, isRequired⟩ : ∃ required, required = requirement context.element?
      (((bare tag).attribute? "name").or ((bare tag).attribute? "ref"))
      ((bare tag).attribute? "use") := ⟨_, rfl⟩
  -- The type of the attribute concerns no element; that it is required concerns the owner.
  have stated : ∃ typed, openAttribute tag context = .ok (typed ++ required,
        { context with attribute? := (bare tag).attribute? "name" }) ∧
      ∀ fact ∈ typed, fact.owner? = none ∧ fact.isNamespace = false := by
    rw [isRequired]
    simp only [openAttribute, read, bind, Except.bind, pure, Except.pure]
    by_cases top : context.frames.head? = some "schema"
    · rw [if_pos top]
      exact ⟨[], rfl, by simp⟩
    · rw [if_neg top]
      split
      · exact ⟨[_], rfl, by simp [Fact.owner?, Fact.isNamespace]⟩
      · exact ⟨[], rfl, by simp⟩
  obtain ⟨typed, stated, ofType⟩ := stated
  have same : ∀ fact ∈ typed ++ required,
      (fact.owner? = none ∨ fact.owner? = context.element?) ∧ fact.isNamespace = false := by
    intro fact member
    rcases List.mem_append.mp member with member | member
    · exact (ofType fact member).imp_left .inl
    · rw [isRequired] at member
      exact (of_mem_requirement member).imp_left .inr
  have opens : Opens tag context (typed ++ required) context := .same same
  exact ⟨_, _, stated, ⟨rfl, opens.keepsElement, opens.declares, fun other => absurd named other,
    opens.keepsType, opens.keepsConstraint, opens.owned, opens.plain⟩⟩

theorem opens_openSimpleType (wellFormed : (bare tag).WellFormed)
    (named : (bare tag).name = "simpleType") (context : Context) :
    ∃ facts inside, openSimpleType tag context = .ok (facts, inside) ∧
      Opens tag context facts inside := by
  have read := attributeText?_of_wellFormed wellFormed
  simp only [openSimpleType, read, bind, Except.bind, pure, Except.pure]
  split
  · refine ⟨_, _, rfl, ?_⟩
    constructor <;> simp_all [Fact.owner?, Fact.isNamespace]
  · split
    · refine ⟨_, _, rfl, ?_⟩
      constructor <;> simp_all [Fact.owner?, Fact.isNamespace]
    · refine ⟨_, _, rfl, ?_⟩
      constructor <;> simp_all
  · refine ⟨_, _, rfl, ?_⟩
    constructor <;> simp_all

theorem opens_openConstraint (wellFormed : (bare tag).WellFormed)
    (named : (bare tag).name = "key" ∨ (bare tag).name = "keyref") (attributeName : String)
    (kind : String → ConstraintKind) (context : Context) :
    ∃ facts inside, openConstraint tag attributeName kind context = .ok (facts, inside) ∧
      Opens tag context facts inside := by
  have read := attributeText?_of_wellFormed wellFormed
  simp only [openConstraint, read, bind, Except.bind, pure, Except.pure]
  split
  · exact ⟨_, _, rfl, .same (by simp)⟩
  · refine ⟨_, _, rfl, ?_⟩
    rcases named with key | keyref <;> constructor <;> simp_all

theorem opens_openPath (wellFormed : (bare tag).WellFormed) (start : String)
    (change : String → Constraint → Constraint) (context : Context) :
    ∃ facts inside, openPath tag start change context = .ok (facts, inside) ∧
      Opens tag context facts inside := by
  have read := attributeText?_of_wellFormed wellFormed
  simp only [openPath, read, bind, Except.bind, pure, Except.pure]
  split
  · exact ⟨_, _, rfl, .same (by simp)⟩
  · refine ⟨_, _, rfl, ?_⟩
    constructor <;> simp_all

/-- A well-formed tag that begins no schema is read. -/
theorem exists_opens (wellFormed : (bare tag).WellFormed) (inner : (bare tag).name ≠ "schema")
    (context : Context) :
    ∃ facts inside, enterTag tag context =
        .ok (facts, { inside with frames := (bare tag).name :: context.frames }) ∧
      Opens tag context facts inside := by
  obtain ⟨name, decoded⟩ := wellFormed.named
  have read := attributeText?_of_wellFormed wellFormed
  have named : (bare tag).name = name := shownName_eq_of_decodeUtf8_eq decoded
  have opened : ∃ facts inside, openTag name tag context = .ok (facts, inside) ∧
      Opens tag context facts inside := by
    unfold openTag
    -- The cases are numbered in the order of the names in `openTag`.
    split
    case h_1 => exact absurd named inner
    case h_5 => exact opens_openElement wellFormed named context
    case h_6 =>
      refine ⟨_, _, rfl, .same ?_⟩
      cases context.element? <;> simp [Fact.owner?, Fact.isNamespace]
    case h_8 => exact opens_openAttribute wellFormed named context
    case h_9 => exact opens_openSimpleType wellFormed named context
    case h_12 => exact opens_openConstraint wellFormed (.inl named) _ _ context
    case h_13 => exact opens_openConstraint wellFormed (.inr named) _ _ context
    case h_14 => exact opens_openPath wellFormed _ _ context
    case h_15 => exact opens_openPath wellFormed _ _ context
    case h_16 => exact ⟨_, _, rfl, .same (by simp)⟩
    all_goals simp only [read, bind, Except.bind, pure, Except.pure]
    case h_7 =>
      split
      · exact ⟨_, _, rfl, .same (by simp)⟩
      · refine ⟨_, _, rfl, .same ?_⟩
        split <;> simp_all [Fact.owner?, Fact.isNamespace]
    -- References and types concern no element.
    all_goals split <;> exact ⟨_, _, rfl, .same (by simp [Fact.owner?, Fact.isNamespace])⟩
  obtain ⟨facts, inside, opened, opens⟩ := opened
  refine ⟨facts, inside, ?_, opens⟩
  have decoded' : decodeUtf8 (localName tag.name) = .ok name := decoded
  rw [enterTag, decoded', named, ← opens.frames]
  simp only [mapError_ok, bind, Except.bind, opened]
  rfl

end

/-- What the end of a tag does: it takes back what the tag may have begun. -/
structure Closes (name : String) (outer : List String) (context : Context) (facts : List Fact)
    (behind : Context) : Prop where
  frames : behind.frames = outer
  keepsElement : outer.length ≠ 1 → behind.element? = context.element?
  clearsElement : context.element? = none ∨ name = "element" ∧ outer.length = 1 →
    behind.element? = none
  clearsAttribute : context.attribute? = none ∨ name = "attribute" → behind.attribute? = none
  clearsType : context.simpleType? = none ∨ name = "simpleType" → behind.simpleType? = none
  clearsConstraint : context.constraint? = none ∨ name = "key" ∨ name = "keyref" →
    behind.constraint? = none
  plain : ∀ fact ∈ facts, fact.owner? = none ∧ fact.isNamespace = false

theorem of_mem_facts {constraint : Constraint} {fact : Fact} (member : fact ∈ constraint.facts) :
    fact.owner? = none ∧ fact.isNamespace = false := by
  rw [Constraint.facts] at member
  split at member
  · cases member
  · split at member <;>
    · rw [List.mem_singleton.mp member]
      exact ⟨rfl, rfl⟩

theorem closes_closeTag {context : Context} {name : String} {outer : List String}
    (found : context.frames = name :: outer) :
    Closes name outer context (closeTag context).1 (closeTag context).2 := by
  have complete : ∀ fact ∈ (context.constraint?.map Constraint.facts).getD [],
      fact.owner? = none ∧ fact.isNamespace = false := by
    intro fact member
    cases pending : context.constraint? with
    | none =>
      rw [pending] at member
      cases member
    | some constraint =>
      rw [pending] at member
      exact of_mem_facts member
  rw [closeTag, found]
  dsimp only
  split
  · constructor <;> split <;> simp_all
  all_goals constructor <;> simp_all

/-! ## Pieces -/

mutual

/-- All tags of a piece are well-formed, and none of them begins a schema. -/
def IsContent : Piece → Prop
  | .element tag _ children =>
      (bare tag).WellFormed ∧ (bare tag).name ≠ "schema" ∧ AreContent children
  | .empty tag => (bare tag).WellFormed ∧ (bare tag).name ≠ "schema"
  | .leaf _ => True

/-- All tags of pieces are well-formed, and none of them begins a schema. -/
def AreContent : List Piece → Prop
  | [] => True
  | piece :: pieces => IsContent piece ∧ AreContent pieces

end

mutual

def decidableIsContent : (piece : Piece) → Decidable (IsContent piece)
  | .element tag _ children =>
      haveI := decidableAreContent children
      inferInstanceAs (Decidable
        ((bare tag).WellFormed ∧ (bare tag).name ≠ "schema" ∧ AreContent children))
  | .empty tag => inferInstanceAs (Decidable ((bare tag).WellFormed ∧ (bare tag).name ≠ "schema"))
  | .leaf _ => isTrue trivial

def decidableAreContent : (pieces : List Piece) → Decidable (AreContent pieces)
  | [] => isTrue trivial
  | piece :: pieces =>
      haveI := decidableIsContent piece
      haveI := decidableAreContent pieces
      inferInstanceAs (Decidable (IsContent piece ∧ AreContent pieces))

end

instance (pieces : List Piece) : Decidable (AreContent pieces) :=
  decidableAreContent pieces

/-- A place inside a declaration. -/
def Inside (context : Context) : Prop :=
  context.frames.head? ≠ some "schema" ∧ 2 ≤ context.frames.length

/-- What a piece that stands in a declaration, or is one, does to the context: it takes back what
it began, and what it states is about the element that is being declared. -/
structure Passes (declares : String → Prop) (context : Context) (facts : List Fact)
    (behind : Context) : Prop where
  frames : behind.frames = context.frames
  keepsElement : Inside context → behind.element? = context.element?
  clearsElement : context.frames = ["schema"] → context.element? = none → behind.element? = none
  clearsAttribute : context.attribute? = none → behind.attribute? = none
  clearsType : context.simpleType? = none → behind.simpleType? = none
  clearsConstraint : context.constraint? = none → behind.constraint? = none
  owned : ∀ fact ∈ facts, ∀ owner ∈ fact.owner?,
    context.element? = some owner ∨ context.frames = ["schema"] ∧ declares owner
  plain : ∀ fact ∈ facts, fact.isNamespace = false

/-- What is inside a declaration is not at the top. -/
theorem Inside.not_top {context : Context} (inside : Inside context) :
    context.frames ≠ ["schema"] := by
  intro top
  rw [Inside, top] at inside
  exact inside.1 rfl

namespace Passes

variable {declares declares' : String → Prop} {context middle behind : Context}
  {facts more : List Fact}

theorem refl (declares : String → Prop) (context : Context) :
    Passes declares context [] context := by
  constructor <;> simp

/-- Inside a declaration nothing is declared. -/
theorem trans (inside : Inside context) (first : Passes declares context facts middle)
    (second : Passes declares' middle more behind) :
    Passes (fun _ => False) context (facts ++ more) behind := by
  have inside' : Inside middle := by
    rw [Inside, first.frames]
    exact inside
  constructor
  case frames => exact second.frames.trans first.frames
  case keepsElement =>
    intro _
    exact (second.keepsElement inside').trans (first.keepsElement inside)
  case clearsElement => exact fun top => absurd top inside.not_top
  case clearsAttribute => exact fun none => second.clearsAttribute (first.clearsAttribute none)
  case clearsType => exact fun none => second.clearsType (first.clearsType none)
  case clearsConstraint => exact fun none => second.clearsConstraint (first.clearsConstraint none)
  case owned =>
    intro fact member owner named
    rcases List.mem_append.mp member with member | member
    · exact .inl ((first.owned fact member owner named).resolve_right fun top =>
        inside.not_top top.1)
    · rw [← first.keepsElement inside]
      exact .inl ((second.owned fact member owner named).resolve_right fun top =>
        inside'.not_top top.1)
  case plain =>
    intro fact member
    rcases List.mem_append.mp member with member | member
    · exact first.plain fact member
    · exact second.plain fact member

/-- A tag with its content and its end passes. -/
theorem enclosed {tag : Tag} {opened closed : List Fact} {inside inside' : Context}
    (place : Inside context ∨ context.frames = ["schema"])
    (opens : Opens tag context opened inside)
    (content : Passes declares' { inside with frames := (bare tag).name :: context.frames } facts
      inside')
    (inner : Inside { inside with frames := (bare tag).name :: context.frames })
    (closes : Closes (bare tag).name context.frames inside' closed behind) :
    Passes (Declares tag) context (opened ++ facts ++ closed) behind := by
  have owners : ∀ owner, inside.element? = some owner ∨
      context.element? = some owner ∨ context.frames.head? = some "schema" ∧ Declares tag owner →
      context.element? = some owner ∨ context.frames = ["schema"] ∧ Declares tag owner := by
    intro owner named
    have named : context.element? = some owner ∨
        context.frames.head? = some "schema" ∧ Declares tag owner :=
      named.elim (opens.declares owner) id
    rcases place with deep | top
    · exact .inl (named.resolve_right fun root => deep.1 root.1)
    · exact named.imp_right fun root => ⟨top, root.2⟩
  constructor
  case frames => exact closes.frames
  case keepsElement =>
    intro deep
    rw [closes.keepsElement (by have := deep.2; omega), content.keepsElement inner]
    exact opens.keepsElement (.inr deep.1)
  case clearsElement =>
    intro top none
    apply closes.clearsElement
    by_cases named : (bare tag).name = "element"
    · exact .inr ⟨named, by rw [top]; rfl⟩
    · rw [content.keepsElement inner]
      exact .inl ((opens.keepsElement (.inl named)).trans none)
  case clearsAttribute =>
    intro none
    apply closes.clearsAttribute
    by_cases named : (bare tag).name = "attribute"
    · exact .inr named
    · exact .inl (content.clearsAttribute ((opens.keepsAttribute named).trans none))
  case clearsType =>
    intro none
    apply closes.clearsType
    by_cases named : (bare tag).name = "simpleType"
    · exact .inr named
    · exact .inl (content.clearsType ((opens.keepsType named).trans none))
  case clearsConstraint =>
    intro none
    apply closes.clearsConstraint
    by_cases named : (bare tag).name = "key" ∨ (bare tag).name = "keyref"
    · exact .inr named
    · rw [not_or] at named
      exact .inl (content.clearsConstraint (opens.keepsConstraint named.1 named.2 none))
  case owned =>
    intro fact member owner named
    rcases List.mem_append.mp member with member | member
    · rcases List.mem_append.mp member with member | member
      · exact owners owner (.inr (opens.owned fact member owner named))
      · exact owners owner (.inl
          ((content.owned fact member owner named).resolve_right fun top => inner.not_top top.1))
    · rw [(closes.plain fact member).1] at named
      cases named
  case plain =>
    intro fact member
    rcases List.mem_append.mp member with member | member
    · rcases List.mem_append.mp member with member | member
      · exact opens.plain fact member
      · exact content.plain fact member
    · exact (closes.plain fact member).2

end Passes

/-- The tag with which a piece begins; what stands between tags has none. -/
def tag? : Piece → Option Tag
  | .element tag _ _ => some tag
  | .empty tag => some tag
  | .leaf _ => none

/-- Nothing is pending that a tag with some name may have begun. -/
structure Settled (name : String) (context : Context) : Prop where
  element : name = "element" → context.frames.length = 1 → context.element? = none
  ofAttribute : name = "attribute" → context.attribute? = none
  ofType : name = "simpleType" → context.simpleType? = none
  ofConstraint : name = "key" ∨ name = "keyref" → context.constraint? = none

theorem Closes.settled {name : String} {outer : List String} {context behind : Context}
    {facts : List Fact} (closes : Closes name outer context facts behind) :
    Settled name behind where
  element named top := closes.clearsElement (.inr ⟨named, closes.frames ▸ top⟩)
  ofAttribute named := closes.clearsAttribute (.inr named)
  ofType named := closes.clearsType (.inr named)
  ofConstraint named := closes.clearsConstraint (.inr named)

/-- Whether a piece declares an element. -/
def PieceDeclares (name : String) : Piece → Prop
  | .element tag _ _ => Declares tag name
  | .empty tag => Declares tag name
  | .leaf _ => False

/-- A tag with its end is read if what stands between them is. Nothing is pending behind it that it
began. -/
theorem exists_passes_element {tag : Tag} (gap : Bytes) {children : List Piece}
    {context : Context} (wellFormed : (bare tag).WellFormed) (notRoot : (bare tag).name ≠ "schema")
    (place : Inside context ∨ context.frames = ["schema"])
    (content : ∀ inside, Inside inside → ∃ facts behind,
      statedByAll inside children = .ok (facts, behind) ∧
        Passes (fun _ => False) inside facts behind) :
    ∃ facts behind, statedBy context (.element tag gap children) = .ok (facts, behind) ∧
      Passes (Declares tag) context facts behind ∧ Settled (bare tag).name behind := by
  obtain ⟨opened, inside, entered, opens⟩ := exists_opens wellFormed notRoot context
  have inner : Inside { inside with frames := (bare tag).name :: context.frames } := by
    constructor
    · simpa using notRoot
    · rcases place with deep | top
      · have := deep.2
        simp only [List.length_cons]
        omega
      · simp [top]
  obtain ⟨facts, inside', stated, passes⟩ := content _ inner
  have closes := closes_closeTag passes.frames
  refine ⟨_, _, ?_, passes.enclosed place opens inner closes, closes.settled⟩
  rw [statedBy, entered]
  simp only [bind, Except.bind, stated]
  rfl

mutual

/-- A piece of a schema's content is read, and it passes. -/
theorem exists_passes : {piece : Piece} → IsContent piece → {context : Context} →
    Inside context ∨ context.frames = ["schema"] → ∃ facts behind,
      statedBy context piece = .ok (facts, behind) ∧
        Passes (PieceDeclares · piece) context facts behind ∧
        ∀ tag ∈ tag? piece, Settled (bare tag).name behind
  | .element tag gap children, ⟨wellFormed, notRoot, content⟩, context, place => by
    obtain ⟨facts, behind, stated, passes, settled⟩ :=
      exists_passes_element gap wellFormed notRoot place fun _ inside =>
        exists_passes_all content inside
    refine ⟨facts, behind, stated, passes, ?_⟩
    rintro _ ⟨⟩
    exact settled
  | .empty tag, ⟨wellFormed, notRoot⟩, context, place => by
    have nothing : ∀ inside, Inside inside → ∃ facts behind,
        statedByAll inside [] = .ok (facts, behind) ∧
          Passes (fun _ => False) inside facts behind :=
      fun inside _ => ⟨[], inside, rfl, .refl _ inside⟩
    obtain ⟨facts, behind, stated, passes, settled⟩ :=
      exists_passes_element [] wellFormed notRoot place nothing
    rw [← statedBy_empty] at stated
    refine ⟨facts, behind, stated, passes, ?_⟩
    rintro _ ⟨⟩
    exact settled
  | .leaf _, _, context, _ => by
    refine ⟨[], context, rfl, .refl _ context, ?_⟩
    rintro _ ⟨⟩

/-- Pieces of a declaration are read, and they pass. -/
theorem exists_passes_all : {pieces : List Piece} → AreContent pieces → {context : Context} →
    Inside context → ∃ facts behind, statedByAll context pieces = .ok (facts, behind) ∧
      Passes (fun _ => False) context facts behind
  | [], _, context, _ => ⟨[], context, rfl, .refl _ context⟩
  | piece :: pieces, ⟨first, more⟩, context, inside => by
    obtain ⟨front, middle, stated, passes, -⟩ := exists_passes first (.inl inside)
    have inside' : Inside middle := by
      rw [Inside, passes.frames]
      exact inside
    obtain ⟨back, behind, stated', passes'⟩ := exists_passes_all more inside'
    refine ⟨front ++ back, behind, ?_, ?_⟩
    · rw [statedByAll, stated]
      simp only [bind, Except.bind, stated']
      rfl
    · exact passes.trans inside passes'

end

/-! ## Declarations at the top -/

/-- The context between declarations: no element, attribute, type or constraint is pending. -/
def topContext : Context :=
  { frames := ["schema"] }

/-- What a declaration states. -/
def factsOf (piece : Piece) : List Fact :=
  match statedBy topContext piece with
  | .ok (facts, _) => facts
  | .error _ => []

/-- A declaration at the top is read, and nothing is pending behind it. What it states is about
the element that it declares. -/
theorem statedBy_topContext {piece : Piece} (content : IsContent piece) :
    statedBy topContext piece = .ok (factsOf piece, topContext) ∧
      ∀ fact ∈ factsOf piece,
        (∀ owner ∈ fact.owner?, PieceDeclares owner piece) ∧ fact.isNamespace = false := by
  have place : Inside topContext ∨ topContext.frames = ["schema"] := .inr rfl
  obtain ⟨facts, behind, stated, passes, -⟩ := exists_passes content place
  have same : behind = topContext := by
    have frames := passes.frames
    have element := passes.clearsElement rfl rfl
    have attributeIs := passes.clearsAttribute rfl
    have type := passes.clearsType rfl
    have constraint := passes.clearsConstraint rfl
    rcases behind with ⟨⟩
    simp_all [topContext]
  have found : factsOf piece = facts := by
    rw [factsOf, stated]
  rw [found, stated, same]
  refine ⟨rfl, fun fact member => ⟨?_, passes.plain fact member⟩⟩
  intro owner named
  exact ((passes.owned fact member owner named).resolve_left fun pending => by cases pending).2

theorem statedByAll_topContext {pieces : List Piece} (content : AreContent pieces) :
    statedByAll topContext pieces = .ok (pieces.flatMap factsOf, topContext) := by
  induction pieces with
  | nil => rfl
  | cons piece pieces ih =>
    rw [statedByAll, (statedBy_topContext content.1).1]
    simp only [bind, Except.bind, ih content.2]
    rfl

end GraphMarkup.Schema
