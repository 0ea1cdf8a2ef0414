import GraphMarkup.Value.Written

/-!
# Types of members

A record may have members of any type; only those whose type is a kind of
attribute value can be written to a document. Any other type is known by its
name, so that a declaration which marks such a member can be refused by name.
-/

namespace GraphMarkup.Value

/-- The name of a scalar's type in messages. -/
def ScalarKind.typeName : ScalarKind → String
  | .boolean => "bool"
  | .int => "i32"
  | .long => "i64"
  | .float => "f32"
  | .double => "f64"
  | .string => "String"

/-- The name of an attribute value's type in messages. -/
def ValueKind.typeName : ValueKind → String
  | .scalar element => element.typeName
  | .list element => "Vec<" ++ element.typeName ++ ">"
  | .nullable element => "Option<Vec<" ++ element.typeName ++ ">>"

/-- The types of members. -/
inductive MemberType where
  /-- Values of this type can be attributes. -/
  | ofKind (kind : ValueKind)
  /-- No attribute can have this type. -/
  | foreign (name : String)
deriving DecidableEq, Repr

namespace MemberType

/-- The type with a single value. -/
def unit : MemberType :=
  .foreign "()"

/-- The values of a member type. Those of a foreign type are only passed on,
so a text stands for each of them. -/
abbrev Carrier : MemberType → Type
  | .ofKind kind => kind.Carrier
  | .foreign _ => String

/-- The name of a member type in messages. -/
def name : MemberType → String
  | .ofKind kind => kind.typeName
  | .foreign name => name

/-- The attribute kind of a type, if it has one. -/
def kind? : MemberType → Option ValueKind
  | .ofKind kind => some kind
  | .foreign _ => none

end MemberType

end GraphMarkup.Value
