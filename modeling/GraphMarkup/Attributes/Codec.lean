import GraphMarkup.Attributes.Declaration

/-!
# Attribute codecs

A checked declaration becomes a codec: the list of its attributes, each with
the text forms of its kind. The codec writes the attributes of an instance
that differ from their defaults, and reads them back by name onto an instance
that holds the defaults.
-/

namespace GraphMarkup.Attributes

open GraphMarkup.Value

/-- An attribute of a checked declaration. -/
structure Property (α : Type) where
  name : String
  kind : ValueKind
  get : α → kind.Carrier
  set : kind.Carrier → α → α
  default? : Option kind.Carrier

/-- Why a piece of data cannot be read. -/
inductive DataError where
  | value (property : String) (cause : ValueError)
  | unknownKey (key typeName : String)
deriving DecidableEq, Repr

/-- The wording of a data error. -/
def DataError.message : DataError → String
  | .value property cause => property ++ ": " ++ cause.message
  | .unknownKey key typeName => s!"unknown attribute key '{key}' for type {typeName}"

namespace Property

variable {α : Type}

/-- The text of the default. -/
def defaultText? (property : Property α) : Option String :=
  property.default?.map property.kind.write

/-- The text of the attribute, unless its value is the default. -/
def write? (property : Property α) (owner : α) : Option String :=
  let value := property.get owner
  if property.default?.any (property.kind.equals value) then none
  else some (property.kind.write value)

/-- Set the attribute from its text. -/
def read (property : Property α) (text : String) (owner : α) : Except DataError α :=
  match property.kind.read text with
  | .ok value => .ok (property.set value owner)
  | .error cause => .error (.value property.name cause)

/-- Set the attribute to its default, if it has one. -/
def applyDefault (property : Property α) (owner : α) : α :=
  match property.default? with
  | none => owner
  | some value => property.set value owner

end Property

/-- The attributes of a type, ready for writing and reading. -/
structure Codec (α : Type) where
  typeName : String
  properties : List (Property α)

/-- Check one attribute. A list-shaped attribute cannot have a default. -/
def Attribute.compile {α : Type} (typeName : String) :
    Attribute α → Except ConfigurationError (Property α)
  | ⟨name, _, .ofKind kind, get, set, default?⟩ =>
      match resolveDefault (.ofKind kind) kind.isList default? with
      | .ok resolved => .ok ⟨name, kind, get, set, resolved⟩
      | .error fault => .error ⟨typeName, name, fault⟩
  | ⟨name, _, .foreign foreignName, _, _, default?⟩ =>
      match resolveDefault (.foreign foreignName) false default? with
      | .ok _ => .error ⟨typeName, name, .unsupportedType (.foreign foreignName)⟩
      | .error fault => .error ⟨typeName, name, fault⟩

/-- Check a declaration: first the accessors of all attributes, then one
attribute after the other. -/
def Declaration.compile {α : Type} (declaration : Declaration α) :
    Except ConfigurationError (Codec α) := do
  let attributes ← declaration.attributes
  let properties ← attributes.mapM (Attribute.compile declaration.typeName)
  pure ⟨declaration.typeName, properties⟩

namespace Codec

variable {α : Type}

/-- The written attributes of an instance, by name. -/
def write (codec : Codec α) (owner : α) : List (String × String) :=
  codec.properties.filterMap fun property =>
    (property.write? owner).map (property.name, ·)

/-- Set all attributes that have a default to it. -/
def applyDefaults (codec : Codec α) (owner : α) : α :=
  codec.properties.foldl (fun current property => property.applyDefault current) owner

/-- Set the first attribute with the name `key` from its text. -/
def read (codec : Codec α) (key text : String) (owner : α) : Except DataError α :=
  match codec.properties.find? (·.name = key) with
  | some property => property.read text owner
  | none => .error (.unknownKey key codec.typeName)

end Codec

end GraphMarkup.Attributes
