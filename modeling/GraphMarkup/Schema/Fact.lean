import GraphMarkup.Markup.Event
import GraphMarkup.Schema.Declarations

/-!
# Facts

A schema document states facts, one after the other. A schema is what results
from adding them to the empty schema in order.
-/

namespace GraphMarkup.Schema

open GraphMarkup.Markup
open GraphMarkup.Text

/-- Why a schema document cannot be read. -/
inductive DocumentFault where
  | notWellFormed (position : Nat) (cause : MarkupError)
  | name (cause : Utf8Error)
  | attributes (cause : AttributeError)
  | value (cause : MarkupError)
deriving DecidableEq, Repr

/-- The wording of a fault. -/
def DocumentFault.message : DocumentFault → String
  | .notWellFormed position cause =>
      s!"schema is not well-formed at byte {position}: " ++ cause.message
  | .name cause => cause.message
  | .attributes cause => cause.message
  | .value cause => cause.message

/-- Why a set of schema documents cannot be loaded. -/
inductive SchemaError where
  | unresolved (location : String)
  | faulty (location : String) (fault : DocumentFault)
deriving DecidableEq, Repr

/-- The wording of a schema error. -/
def SchemaError.message : SchemaError → String
  | .unresolved location => s!"schema document '{location}' could not be resolved"
  | .faulty location fault => location ++ ": " ++ fault.message

/-- What a schema document states in one place. -/
inductive Fact where
  /-- The namespace of the document, whose text may be faulty. It counts only
  in the first document that has one. -/
  | targetNamespace (name? : Except DocumentFault (Option String))
  /-- Another document belongs to the schema. -/
  | reference (location : String)
  /-- A top-level element, which holds text if it has a type. -/
  | element (name : String) (hasType : Bool)
  | child (owner child : String)
  | anyChildren (owner : String)
  | mixed (owner : String)
  | required (owner attributeName : String)
  | attributeType (attributeName type : String)
  | simpleType (name : String)
  | base (type : String) (base? : Option String)
  | enumerated (type value : String)
  | key (key : IdentityKey)
  | identityReference (reference : IdentityReference)

/-- The location that a fact refers to. -/
def Fact.reference? : Fact → Option String
  | .reference location => some location
  | _ => none

/-- Change the declaration of an element. -/
def updateElement (schema : Schema) (name : String) (change : ElementDecl → ElementDecl) :
    Schema :=
  { schema with elements := Table.update schema.elements name {} change }

/-- Change a named type. -/
def updateType (schema : Schema) (name : String) (change : SimpleType → SimpleType) :
    Schema :=
  { schema with types := Table.update schema.types name {} change }

/-- Add a fact. -/
def add (schema : Schema) : Fact → Except DocumentFault Schema
  | .targetNamespace name? =>
      match schema.targetNamespace? with
      | some _ => .ok schema
      | none => name?.map fun name? => { schema with targetNamespace? := name? }
  | .reference _ => .ok schema
  | .element name hasType =>
      .ok (schema.updateElement name fun element =>
        { element with textAllowed := element.textAllowed || hasType })
  | .child owner child =>
      .ok (schema.updateElement owner fun element =>
        { element with children := element.children.insert child })
  | .anyChildren owner =>
      .ok (schema.updateElement owner fun element => { element with anyChildren := true })
  | .mixed owner =>
      .ok (schema.updateElement owner fun element => { element with textAllowed := true })
  | .required owner attributeName =>
      .ok (schema.updateElement owner fun element =>
        { element with required := element.required ++ [attributeName] })
  | .attributeType attributeName type =>
      .ok { schema with
        attributeTypes := Table.insertNew schema.attributeTypes attributeName type }
  | .simpleType name => .ok (schema.updateType name id)
  | .base name base? =>
      .ok (schema.updateType name fun type => { type with base? := base? })
  | .enumerated name value =>
      .ok (schema.updateType name fun type =>
        { type with enumeration := type.enumeration ++ [value] })
  | .key key => .ok { schema with keys := schema.keys ++ [key] }
  | .identityReference reference =>
      .ok { schema with references := schema.references ++ [reference] }

end GraphMarkup.Schema
