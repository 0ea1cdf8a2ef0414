import GraphMarkup.Schema.Table
import GraphMarkup.Text.Blank
import GraphMarkup.Text.Integer

/-!
# Schemas

Of a set of schema documents only what validation needs is kept: for every
element its children, whether it takes any content or text, and the
attributes it requires; the simple types with their bases and enumerations;
the types of attributes; and the constraints on ids and references to them.
-/

namespace GraphMarkup.Schema

open GraphMarkup.Text

/-- What may stand in an element, and what it has to carry. -/
structure ElementDecl where
  children : List String := []
  /-- Any elements may stand in it, and nothing in them is checked. -/
  anyChildren : Bool := false
  textAllowed : Bool := false
  /-- The required attributes, possibly with qualifiers. -/
  required : List String := []
deriving DecidableEq, Repr, Inhabited

/-- A named type of attribute values. -/
structure SimpleType where
  base? : Option String := none
  enumeration : List String := []
deriving DecidableEq, Repr, Inhabited

/-- Values of `attributeName` at elements called `element` are unique. -/
structure IdentityKey where
  name : String
  element : String
  attributeName : String
deriving DecidableEq, Repr

/-- Values of `attributeName` at elements called `element` occur among those of the
key called `refer`. -/
structure IdentityReference where
  refer : String
  element : String
  attributeName : String
deriving DecidableEq, Repr

end GraphMarkup.Schema

namespace GraphMarkup

open Schema in
/-- The facts kept of a set of schema documents. -/
structure Schema where
  targetNamespace? : Option String := none
  elements : Table ElementDecl := []
  types : Table SimpleType := []
  /-- The names of the types of attributes. -/
  attributeTypes : Table String := []
  keys : List IdentityKey := []
  references : List IdentityReference := []
  documentCount : Nat := 0
deriving DecidableEq, Repr, Inhabited

end GraphMarkup

namespace GraphMarkup.Schema

open GraphMarkup.Text

/-- A name without its qualifier: what stands behind the last colon. -/
def unqualified (name : String) : String :=
  String.ofList (name.toList.reverse.takeWhile (· != ':')).reverse

/-- Whether a type is one of the types that every schema knows. -/
def isBuiltin (name : String) : Bool :=
  "xs:".toList.isPrefixOf name.toList || "xsd:".toList.isPrefixOf name.toList

/-- The texts that an attribute may have as values. -/
inductive LexicalSpace where
  | enumeration (values : List String)
  | nonNegativeInteger
  | boolean
  | unrestricted
deriving DecidableEq, Repr

namespace LexicalSpace

/-- Whether a text is in the space. Blank characters around it do not count. -/
def accepts (space : LexicalSpace) (value : String) : Bool :=
  let value := trim value
  match space with
  | enumeration values => values.contains value
  | nonNegativeInteger => (readNatural 10 (UInt64.size - 1) value.toList).toBool
  | boolean => ["true", "false", "1", "0"].contains value
  | unrestricted => true

/-- A description of the space. -/
def description : LexicalSpace → String
  | enumeration values => "one of " ++ ", ".intercalate values
  | nonNegativeInteger => "a non-negative integer"
  | boolean => "a boolean"
  | unrestricted => "any value"

end LexicalSpace

/-- The declaration of an element. -/
def element? (schema : Schema) (name : String) : Option ElementDecl :=
  schema.elements.find? name

/-- A named type; a qualifier of the name does not count. -/
def simpleType? (schema : Schema) (name : String) : Option SimpleType :=
  schema.types.find? (unqualified name)

/-- The texts of a type, which is followed to its base at most `steps` times. -/
def lexicalSpaceOfType (schema : Schema) : Nat → String → LexicalSpace
  | 0, _ => .unrestricted
  | steps + 1, name =>
      if isBuiltin name then
        let kind := unqualified name
        if kind = "nonNegativeInteger" then .nonNegativeInteger
        else if kind = "boolean" then .boolean
        else .unrestricted
      else
        match schema.simpleType? name with
        | none => .unrestricted
        | some type =>
            if !type.enumeration.isEmpty then .enumeration type.enumeration
            else
              match type.base? with
              | none => .unrestricted
              | some base => schema.lexicalSpaceOfType steps base

/-- The length of the longest chain of types that is followed. -/
def derivationLimit : Nat :=
  16

/-- The texts that an attribute without qualifier may have. -/
def lexicalSpace (schema : Schema) (attributeName : String) : LexicalSpace :=
  match schema.attributeTypes.find? attributeName with
  | none => .unrestricted
  | some type => schema.lexicalSpaceOfType derivationLimit type

end GraphMarkup.Schema
