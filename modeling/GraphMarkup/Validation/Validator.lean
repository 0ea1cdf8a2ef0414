import GraphMarkup.Document.Vocabulary
import GraphMarkup.Markup.Namespace
import GraphMarkup.Schema.Loading
import GraphMarkup.Validation.Doctype

/-!
# Validation

A document is checked against a schema in one pass over its events. Elements
are checked when they begin; ids are collected on the way, and references to
them are checked at the end, so they may point forwards. Inside an element
with arbitrary content nothing is checked but the markup itself and the depth
of nesting. The first violation ends the pass.
-/

namespace GraphMarkup.Validation

open GraphMarkup.Document
open GraphMarkup.Markup
open GraphMarkup.Schema
open GraphMarkup.Text

/-- An open element. -/
structure Frame where
  name : String
  textAllowed : Bool
  anyChildren : Bool
  /-- The element stands in arbitrary content. -/
  lax : Bool
deriving DecidableEq, Repr

/-- A reference that is checked at the end of the document. -/
structure PendingReference where
  reference : IdentityReference
  value : String
  position : Nat
deriving DecidableEq, Repr

/-- What is known of a document up to some place. -/
structure Progress where
  /-- The open elements, the innermost first. -/
  frames : List Frame := []
  seenRoot : Bool := false
  /-- The values of keys, each with the position of its key in the schema. -/
  keyValues : List (Nat × String) := []
  references : List PendingReference := []
deriving DecidableEq, Repr

/-- A violation at a position. -/
def violation {α : Type} (cause : Violation) (position : Nat) : Except Error α :=
  .error (.validation (.violation cause position))

/-- Check that an element may stand where it does. -/
def checkElement (schema : Schema) (resolution : Resolution) (name : String)
    (progress : Progress) (position : Nat) : Except Error Unit := do
  let inTarget : Bool :=
    match resolution, schema.targetNamespace? with
    | .bound uri, some target => uri == encodeUtf8 target
    | .bound _, none => false
    | _, target? => target?.isNone
  match progress.frames with
  | [] =>
      if progress.seenRoot then violation .secondRoot position
      else if name != ElementName.graphml || !inTarget then
        violation (.wrongRoot (schema.targetNamespace?.getD "")) position
  | parent :: _ =>
      let allowed := (schema.element? parent.name).any (·.children.contains name)
      if !(inTarget && allowed) then violation (.notAllowed name parent.name) position
  if (schema.element? name).isNone then violation (.notDeclared name) position

/-- Check the values of attributes and list them by local name. Declarations of
namespaces are left out, and the type of a value is known only if its
attribute has no qualifier. -/
def checkValues (schema : Schema) (element : String) (position : Nat) :
    List Attribute → Except Error (List (String × String))
  | [] => .ok []
  | found :: rest => do
      if (declaredName? found.key).isSome then checkValues schema element position rest
      else
        let name ← (decodeUtf8 (localName found.key)).mapError .encoding
        let value ← (rawText found.value).mapError .markup
        let space := schema.lexicalSpace name
        if (qualifier? found.key).isNone && !space.accepts value then
          violation (.invalidValue value name element space) position
        else
          let others ← checkValues schema element position rest
          pure ((name, value) :: others)

/-- The attributes of a tag that declare no namespace, by local name. -/
def checkedAttributes (schema : Schema) (tag : Tag) (element : String) (position : Nat) :
    Except Error (List (String × String)) := do
  let scan := tag.attributes true
  let present ← checkValues schema element position scan.found
  match scan.error? with
  | some error => throw (.attributes error)
  | none => pure present

/-- Check that the required attributes of an element are there. -/
def checkRequired (schema : Schema) (element : String) (present : List (String × String))
    (position : Nat) : Except Error Unit :=
  match schema.element? element with
  | none => .ok ()
  | some declaration =>
      match declaration.required.find? fun name => (present.lookup (unqualified name)).isNone with
      | some name => violation (.missingAttribute element name) position
      | none => .ok ()

/-- Collect the key values that an element has. -/
def collectKeys (element : String) (present : List (String × String)) (position : Nat)
    (keyValues : List (Nat × String)) :
    List (IdentityKey × Nat) → Except Error (List (Nat × String))
  | [] => .ok keyValues
  | (key, index) :: rest =>
      match if key.element = element then present.lookup key.attributeName else none with
      | none => collectKeys element present position keyValues rest
      | some value =>
          if keyValues.contains (index, value) then
            violation (.duplicateKey key value) position
          else collectKeys element present position ((index, value) :: keyValues) rest

/-- The references that an element makes. -/
def referencesOf (schema : Schema) (element : String) (present : List (String × String))
    (position : Nat) : List PendingReference :=
  schema.references.filterMap fun reference =>
    if reference.element = element then
      (present.lookup reference.attributeName).map (⟨reference, ·, position⟩)
    else none

/-- Check the attributes of an element. -/
def checkAttributes (schema : Schema) (tag : Tag) (element : String) (position : Nat)
    (progress : Progress) : Except Error Progress := do
  let present ← checkedAttributes schema tag element position
  checkRequired schema element present position
  let keyValues ← collectKeys element present position progress.keyValues schema.keys.zipIdx
  pure { progress with
    keyValues := keyValues
    references := progress.references ++ referencesOf schema element present position }

/-- Put the frame of an element around what follows, unless it is empty. -/
def pushFrame (isEmpty : Bool) (frame : Frame) (progress : Progress) : Progress :=
  if isEmpty then progress else { progress with frames := frame :: progress.frames }

/-- Check the beginning of an element. -/
def startElement (schema : Schema) (settings : Settings) (resolution : Resolution) (tag : Tag)
    (isEmpty : Bool) (position : Nat) (progress : Progress) : Except Error Progress := do
  if settings.maxNestingDepth ≤ progress.frames.length then
    violation (.nestingTooDeep settings.maxNestingDepth) position
  else
    let name ← (decodeUtf8 (localName tag.name)).mapError .encoding
    if progress.frames.head?.any fun frame => frame.lax || frame.anyChildren then
      pure (pushFrame isEmpty ⟨name, true, true, true⟩ progress)
    else
      checkElement schema resolution name progress position
      let progress ←
        checkAttributes schema tag name position { progress with seenRoot := true }
      let declaration? := schema.element? name
      let frame : Frame :=
        ⟨name, declaration?.any (·.textAllowed), declaration?.any (·.anyChildren), false⟩
      pure (pushFrame isEmpty frame progress)

/-- Check character data. Blank text may stand anywhere. -/
def checkText (text : String) (progress : Progress) (position : Nat) : Except Error Unit :=
  if (trim text).isEmpty then .ok ()
  else
    match progress.frames with
    | [] => violation .textOutsideRoot position
    | frame :: _ =>
        if frame.textAllowed || frame.lax then .ok ()
        else violation (.textNotAllowed frame.name) position

/-- Check one event. -/
def checkEvent (resolver : Resolver) (settings : Settings) (schema : Schema)
    (progress : Progress) (resolved : Resolved) (position : Nat) : Except Error Progress := do
  match resolved.event with
  | .doctype content =>
      checkDoctype resolver settings (decodeUtf8Lossy content) position
      pure progress
  | .opening tag =>
      startElement schema settings resolved.resolution tag false position progress
  | .empty tag => startElement schema settings resolved.resolution tag true position progress
  | .closing _ => pure { progress with frames := progress.frames.tail }
  | .text raw =>
      let text ← (rawText raw).mapError .markup
      checkText text progress position
      pure progress
  | .cdata content =>
      checkText (decodeUtf8Lossy content) progress position
      pure progress
  | .comment _ => pure progress
  | .instruction _ => pure progress

/-- Check the rest of a document. -/
def checkEvents (resolver : Resolver) (settings : Settings) (schema : Schema)
    (progress : Progress) : Trace Resolved → Except Error Progress
  | .ended => .ok progress
  | .failed error start _ => violation (.notWellFormed error) start
  | .item resolved position rest =>
      match checkEvent resolver settings schema progress resolved position with
      | .error error => .error error
      | .ok progress => checkEvents resolver settings schema progress rest

/-- Check the references of a document. A reference to a key that the schema
does not have is not checked. -/
def checkReferences (schema : Schema) (keyValues : List (Nat × String)) :
    List PendingReference → Except Error Unit
  | [] => .ok ()
  | pending :: rest =>
      match schema.keys.zipIdx.find? (·.1.name = pending.reference.refer) with
      | none => checkReferences schema keyValues rest
      | some (key, index) =>
          if keyValues.contains (index, pending.value) then
            checkReferences schema keyValues rest
          else violation (.danglingReference pending.reference pending.value key) pending.position

/-- Check a document against a schema. -/
def validate (resolver : Resolver) (settings : Settings) (schema : Schema)
    (document : Bytes) : Except Error Unit := do
  let progress ← checkEvents resolver settings schema {} (Markup.read document)
  if progress.seenRoot then checkReferences schema progress.keyValues progress.references
  else throw (.validation .noRoot)

/-- Load the schema that the settings name and check a document against it. -/
def validateWith (resolver : Resolver) (settings : Settings) (document : Bytes) :
    Except Error Unit := do
  let schema ← Schema.load resolver settings.schema
  validate resolver settings schema document

end GraphMarkup.Validation
