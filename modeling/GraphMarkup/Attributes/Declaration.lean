import GraphMarkup.Value.Type

/-!
# Declarations of attributes

A type declares its members by name, type, accessors and, optionally, a
default value. The members that are marked are its attributes. Before any use
the declaration is checked: every marked member needs both accessors, and a
default has to be a value of the member's own type.
-/

namespace GraphMarkup.Attributes

open GraphMarkup.Value

/-- A default as a declaration gives it, of whatever type. -/
structure DeclaredDefault where
  type : MemberType
  value : type.Carrier

/-- A default of unit type stands for a missing value. -/
def DeclaredDefault.isNull (declared : DeclaredDefault) : Bool :=
  declared.type == .unit

/-- Whether a member is an attribute, and under which name. -/
inductive Marking where
  | plain
  /-- An attribute under the member's own name. -/
  | marked
  /-- An attribute under another name. -/
  | renamed (name : String)
deriving DecidableEq, Repr

/-- One member of a type. -/
structure Member (α : Type) where
  name : String
  type : MemberType
  get? : Option (α → type.Carrier)
  set? : Option (type.Carrier → α → α)
  marking : Marking
  default? : Option DeclaredDefault

namespace Member

/-- The attribute name of a member, if it is one. -/
def attributeName? {α : Type} (member : Member α) : Option String :=
  match member.marking with
  | .plain => none
  | .marked => some member.name
  | .renamed name => some name

end Member

/-- What a type says about its members. -/
structure Declaration (α : Type) where
  typeName : String
  members : List (Member α)

/-- The declaration of a type without members. -/
def Declaration.none (α : Type) (typeName : String) : Declaration α :=
  ⟨typeName, []⟩

/-- The two accessors of a member. -/
inductive Accessor where
  | getter
  | setter
deriving DecidableEq, Repr

/-- The word for an accessor. -/
def Accessor.name : Accessor → String
  | .getter => "getter"
  | .setter => "setter"

/-- What can be wrong with one attribute of a declaration. -/
inductive ConfigurationFault where
  | missingAccessor (accessor : Accessor)
  | nullDefault
  | defaultTypeMismatch (expected found : MemberType)
  | listDefault
  | unsupportedType (type : MemberType)
deriving DecidableEq, Repr

/-- A faulty declaration: the type, the attribute and what is wrong with it. -/
structure ConfigurationError where
  typeName : String
  property : String
  fault : ConfigurationFault
deriving DecidableEq, Repr

/-- The wording of a configuration error. -/
def ConfigurationError.message (error : ConfigurationError) : String :=
  error.typeName ++ "." ++ error.property ++ ": " ++
    match error.fault with
    | .missingAccessor accessor => "attribute property has no " ++ accessor.name
    | .nullDefault => "default value is null"
    | .defaultTypeMismatch expected found =>
        "default value of type " ++ found.name ++ " does not match property type " ++
          expected.name
    | .listDefault => "list properties do not support default values"
    | .unsupportedType type => "unsupported type " ++ type.name

/-- A marked member with both its accessors. -/
structure Attribute (α : Type) where
  name : String
  member : String
  type : MemberType
  get : α → type.Carrier
  set : type.Carrier → α → α
  default? : Option DeclaredDefault

/-- The attribute that a member gives rise to, if it is marked. -/
def Member.attribute? {α : Type} (typeName : String) (member : Member α) :
    Except ConfigurationError (Option (Attribute α)) :=
  match member.attributeName? with
  | none => .ok none
  | some name =>
      match member.get?, member.set? with
      | none, _ => .error ⟨typeName, member.name, .missingAccessor .getter⟩
      | some _, none => .error ⟨typeName, member.name, .missingAccessor .setter⟩
      | some get, some set =>
          .ok (some ⟨name, member.name, member.type, get, set, member.default?⟩)

/-- The attributes of a type, in the order of their declaration. -/
def Declaration.attributes {α : Type} (declaration : Declaration α) :
    Except ConfigurationError (List (Attribute α)) := do
  let found ← declaration.members.mapM (Member.attribute? declaration.typeName)
  pure (found.filterMap id)

/-- The default of an attribute of type `type`, which must not be a list. -/
def resolveDefault (type : MemberType) (isList : Bool) :
    Option DeclaredDefault → Except ConfigurationFault (Option type.Carrier)
  | none => .ok none
  | some declared =>
      if declared.isNull then .error .nullDefault
      else if same : declared.type = type then
        if isList then .error .listDefault else .ok (some (same ▸ declared.value))
      else .error (.defaultTypeMismatch type declared.type)

end GraphMarkup.Attributes
