import GraphMarkup.Markup.Scanner
import GraphMarkup.Schema.Fact

/-!
# Schema documents

A schema document is read tag by tag. What a tag states depends on the
top-level element, the attribute, the simple type and the constraint inside
which it stands; qualifiers of tags do not count. A document whose tags
cannot all be read states facts up to the first fault.
-/

namespace GraphMarkup.Schema

open GraphMarkup.Markup
open GraphMarkup.Text

/-- Which constraint is being declared. -/
inductive ConstraintKind where
  | key (name : String)
  | reference (refer : String)
deriving DecidableEq, Repr

/-- A constraint that is being declared. -/
structure Constraint where
  kind : ConstraintKind
  element : String := ""
  attributeName : String := ""
deriving DecidableEq, Repr

/-- The declarations inside which a tag stands. -/
structure Context where
  /-- The names of the open tags, the innermost first. -/
  frames : List String := []
  element? : Option String := none
  attribute? : Option String := none
  simpleType? : Option String := none
  constraint? : Option Constraint := none
deriving DecidableEq, Repr, Inhabited

/-- The value of an attribute of a tag. -/
def attributeText? (tag : Tag) (name : String) : Except DocumentFault (Option String) :=
  match tag.attribute? (bytesOf name) with
  | .error cause => .error (.attributes cause)
  | .ok none => .ok none
  | .ok (some raw) =>
      match rawText raw with
      | .ok text => .ok (some text)
      | .error cause => .error (.value cause)

/-- A text without what it has to begin with, if it does. -/
def textBehind? (start text : String) : Option String :=
  (dropPrefix? start.toList text.toList).map String.ofList

/-- What a tag states, and the context inside it, its own frame left aside. -/
abbrev Stated :=
  Except DocumentFault (List Fact × Context)

/-- An element: at the top it is declared, inside another it is a child. -/
def openElement (tag : Tag) (context : Context) : Stated := do
  let name? ← attributeText? tag "name"
  let ref? ← attributeText? tag "ref"
  if context.frames.head? = some "schema" then
    match name? with
    | none => pure ([], context)
    | some name =>
        let type? ← attributeText? tag "type"
        pure ([.element name type?.isSome], { context with element? := some name })
  else
    match context.element?, name?.or ref? with
    | some owner, some child => pure ([.child owner (unqualified child)], context)
    | _, _ => pure ([], context)

/-- An attribute of the element that is being declared. Attributes at the top
carry qualifiers in documents, so their types do not count. -/
def openAttribute (tag : Tag) (context : Context) : Stated := do
  let name? ← attributeText? tag "name"
  let ref? ← attributeText? tag "ref"
  let typed ←
    if context.frames.head? = some "schema" then pure []
    else
      let type? ← attributeText? tag "type"
      match name?, type? with
      | some name, some type => pure [Fact.attributeType name type]
      | _, _ => pure []
  let use? ← attributeText? tag "use"
  let required :=
    match context.element?, name?.or ref? with
    | some owner, some name => if use? = some "required" then [Fact.required owner name] else []
    | _, _ => []
  pure (typed ++ required, { context with attribute? := name? })

/-- A simple type. Without a name it is the type of the attribute around it. -/
def openSimpleType (tag : Tag) (context : Context) : Stated := do
  match ← attributeText? tag "name", context.attribute? with
  | some name, _ => pure ([.simpleType name], { context with simpleType? := some name })
  | none, some owner =>
      if context.frames.head? = some "attribute" then
        let name := owner ++ "#inline"
        pure ([.attributeType owner name, .simpleType name],
          { context with simpleType? := some name })
      else pure ([], { context with simpleType? := none })
  | none, none => pure ([], { context with simpleType? := none })

/-- A key or a reference to one, if its tag names it. -/
def openConstraint (tag : Tag) (attributeName : String) (kind : String → ConstraintKind)
    (context : Context) : Stated := do
  match ← attributeText? tag attributeName with
  | none => pure ([], context)
  | some name => pure ([], { context with constraint? := some ⟨kind name, "", ""⟩ })

/-- The path of a constraint's elements or attribute, which has to begin with
`start`. -/
def openPath (tag : Tag) (start : String) (change : String → Constraint → Constraint)
    (context : Context) : Stated := do
  let path? ← attributeText? tag "xpath"
  match textBehind? start (path?.getD "") with
  | none => pure ([], context)
  | some target =>
      pure ([], { context with constraint? := context.constraint?.map (change target) })

/-- What a tag states. -/
def openTag (localName : String) (tag : Tag) (context : Context) : Stated :=
  match localName with
  | "schema" => .ok ([.targetNamespace (attributeText? tag "targetNamespace")], context)
  | "include" | "import" | "redefine" => do
      match ← attributeText? tag "schemaLocation" with
      | none => pure ([], context)
      | some location => pure ([.reference location], context)
  | "element" => openElement tag context
  | "any" => .ok ((context.element?.map Fact.anyChildren).toList, context)
  | "complexType" => do
      match context.element? with
      | none => pure ([], context)
      | some owner =>
          let mixed? ← attributeText? tag "mixed"
          pure (if mixed? = some "true" then [.mixed owner] else [], context)
  | "attribute" => openAttribute tag context
  | "simpleType" => openSimpleType tag context
  | "restriction" => do
      match context.simpleType? with
      | none => pure ([], context)
      | some type => pure ([.base type (← attributeText? tag "base")], context)
  | "enumeration" => do
      match context.simpleType?, ← attributeText? tag "value" with
      | some type, some value => pure ([.enumerated type value], context)
      | _, _ => pure ([], context)
  | "key" => openConstraint tag "name" .key context
  | "keyref" => openConstraint tag "refer" (.reference <| unqualified ·) context
  | "selector" => openPath tag ".//" (fun target c => { c with element := target }) context
  | "field" => openPath tag "@" (fun target c => { c with attributeName := target }) context
  | _ => .ok ([], context)

/-- The fact that a finished constraint states, if it is complete. -/
def Constraint.facts (constraint : Constraint) : List Fact :=
  if constraint.element.isEmpty || constraint.attributeName.isEmpty then []
  else
    match constraint.kind with
    | .key name => [.key ⟨name, constraint.element, constraint.attributeName⟩]
    | .reference refer =>
        [.identityReference ⟨refer, constraint.element, constraint.attributeName⟩]

/-- What the end of the innermost tag states, and the context behind it. -/
def closeTag (context : Context) : List Fact × Context :=
  match context.frames with
  | [] => ([], context)
  | localName :: frames =>
      let context := { context with frames := frames }
      match localName with
      | "element" =>
          ([], if frames.length = 1 then { context with element? := none } else context)
      | "attribute" => ([], { context with attribute? := none })
      | "simpleType" => ([], { context with simpleType? := none })
      | "key" | "keyref" =>
          ((context.constraint?.map Constraint.facts).getD [],
            { context with constraint? := none })
      | _ => ([], context)

/-- What a start tag states, and the context inside it. -/
def enterTag (tag : Tag) (context : Context) : Stated := do
  let localName ← (decodeUtf8 (localName tag.name)).mapError .name
  let (facts, context) ← openTag localName tag context
  pure (facts, { context with frames := localName :: context.frames })

/-- The facts that a document states up to its first fault. -/
structure Statement where
  facts : List Fact
  fault? : Option DocumentFault

namespace Statement

/-- Put facts in front of a statement. -/
def after (facts : List Fact) (statement : Statement) : Statement :=
  { statement with facts := facts ++ statement.facts }

/-- The locations that a document refers to. -/
def references (statement : Statement) : List String :=
  statement.facts.filterMap Fact.reference?

end Statement

/-- What the rest of a document states. -/
def statementFrom (context : Context) : Trace Event → Statement
  | .ended => ⟨[], none⟩
  | .failed error _ stop => ⟨[], some (.notWellFormed stop error)⟩
  | .item event _ rest =>
      match event with
      | .opening tag =>
          match enterTag tag context with
          | .error fault => ⟨[], some fault⟩
          | .ok (facts, inner) => (statementFrom inner rest).after facts
      | .empty tag =>
          match enterTag tag context with
          | .error fault => ⟨[], some fault⟩
          | .ok (facts, inner) =>
              let (closing, context) := closeTag inner
              (statementFrom context rest).after (facts ++ closing)
      | .closing _ =>
          let (closing, context) := closeTag context
          (statementFrom context rest).after closing
      | _ => statementFrom context rest

/-- What a schema document states. -/
def statementOf (document : Bytes) : Statement :=
  statementFrom {} (scan document)

/-- A schema together with what a document states. -/
def addStatement (schema : Schema) (statement : Statement) : Except DocumentFault Schema := do
  let schema ← statement.facts.foldlM add schema
  match statement.fault? with
  | none => pure schema
  | some fault => throw fault

end GraphMarkup.Schema
