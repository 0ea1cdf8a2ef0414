import GraphMarkup.Decimal.Binary

/-!
# Kinds of attribute values

An attribute holds a scalar of one of six kinds, a list of such scalars, or a
list that may be absent. Each kind has a carrier, the type of its values.
-/

namespace GraphMarkup.Value

open GraphMarkup.Decimal

/-- The kinds of scalars. -/
inductive ScalarKind where
  | boolean
  | int
  | long
  | float
  | double
  | string
deriving DecidableEq, Repr

namespace ScalarKind

/-- All scalar kinds. -/
def all : List ScalarKind :=
  [.boolean, .int, .long, .float, .double, .string]

/-- The name of a scalar kind in documents. -/
def name : ScalarKind → String
  | .boolean => "boolean"
  | .int => "int"
  | .long => "long"
  | .float => "float"
  | .double => "double"
  | .string => "string"

/-- The kind with a name. -/
def ofName? (name : String) : Option ScalarKind :=
  all.find? (·.name = name)

/-- The values of a scalar kind. -/
abbrev Carrier : ScalarKind → Type
  | .boolean => Bool
  | .int => Int32
  | .long => Int64
  | .float => Binary .single
  | .double => Binary .double
  | .string => String

/-- Equality of scalars, which for floating-point numbers is numeric. -/
def equals : (kind : ScalarKind) → kind.Carrier → kind.Carrier → Bool
  | .boolean, a, b => a == b
  | .int, a, b => a == b
  | .long, a, b => a == b
  | .float, a, b => a.equals b
  | .double, a, b => a.equals b
  | .string, a, b => a == b

end ScalarKind

/-- The kinds of attribute values. -/
inductive ValueKind where
  | scalar (element : ScalarKind)
  | list (element : ScalarKind)
  /-- A list that may be absent. -/
  | nullable (element : ScalarKind)
deriving DecidableEq, Repr

namespace ValueKind

/-- All kinds of attribute values. -/
def all : List ValueKind :=
  ScalarKind.all.map .scalar ++ ScalarKind.all.map .list ++ ScalarKind.all.map .nullable

/-- The kind of a value's elements, for a scalar its own kind. -/
def element : ValueKind → ScalarKind
  | .scalar element => element
  | .list element => element
  | .nullable element => element

/-- Whether the values of a kind are lists. -/
def isList : ValueKind → Bool
  | .scalar _ => false
  | .list _ => true
  | .nullable _ => true

/-- The name under which a document declares an attribute of the kind: lists
are declared as strings. -/
def declaredName : ValueKind → String
  | .scalar element => element.name
  | .list _ => ScalarKind.string.name
  | .nullable _ => ScalarKind.string.name

/-- A description of the kind. -/
def description : ValueKind → String
  | .scalar element => element.name
  | .list element => "list<" ++ element.name ++ ">"
  | .nullable element => "nullable<" ++ element.name ++ ">"

/-- The values of a kind. -/
abbrev Carrier : ValueKind → Type
  | .scalar element => element.Carrier
  | .list element => List element.Carrier
  | .nullable element => Option (List element.Carrier)

/-- Equality of values. -/
def equals : (kind : ValueKind) → kind.Carrier → kind.Carrier → Bool
  | .scalar element, a, b => element.equals a b
  | .list element, a, b => List.isEqv a b element.equals
  | .nullable element, some a, some b => List.isEqv a b element.equals
  | .nullable _, none, none => true
  | .nullable _, _, _ => false

end ValueKind

end GraphMarkup.Value
