import GraphMarkup.Schema.Fact

/-!
# Violations

What can be wrong with a document that is checked against a schema. A
violation carries the byte position of the event at which it was found.
-/

namespace GraphMarkup.Validation

open GraphMarkup.Markup
open GraphMarkup.Schema

/-- What a document violates. -/
inductive Violation where
  | notWellFormed (cause : MarkupError)
  | nestingTooDeep (limit : Nat)
  | secondRoot
  | wrongRoot (targetNamespace : String)
  | notAllowed (element parent : String)
  | notDeclared (element : String)
  | invalidValue (value attributeName element : String) (expected : LexicalSpace)
  | missingAttribute (element attributeName : String)
  | duplicateKey (key : IdentityKey) (value : String)
  | danglingReference (reference : IdentityReference) (value : String) (key : IdentityKey)
  | textNotAllowed (element : String)
  | textOutsideRoot
  | foreignDoctype (systemId : String)
  | unresolvedDoctype (systemId : String)
deriving DecidableEq, Repr

/-- The wording of a violation. -/
def Violation.message : Violation → String
  | .notWellFormed cause => "document is not well-formed: " ++ cause.message
  | .nestingTooDeep limit => s!"element nesting exceeds {limit} levels"
  | .secondRoot => "document has more than one root element"
  | .wrongRoot targetNamespace =>
      s!"root element must be graphml in namespace '{targetNamespace}'"
  | .notAllowed element parent => s!"element '{element}' is not allowed in '{parent}'"
  | .notDeclared element => s!"element '{element}' is not declared"
  | .invalidValue value attributeName element expected =>
      s!"value '{value}' of attribute '{attributeName}' on '{element}' is invalid, expected " ++
        expected.description
  | .missingAttribute element attributeName =>
      s!"'{element}' is missing the required attribute '{attributeName}'"
  | .duplicateKey key value =>
      "duplicate " ++ key.element ++ " " ++ key.attributeName ++ s!" '{value}'"
  | .danglingReference reference value key =>
      reference.element ++ " " ++ reference.attributeName ++ s!" '{value}' does not match any " ++
        key.element ++ " " ++ key.attributeName
  | .textNotAllowed element => s!"character data is not allowed in '{element}'"
  | .textOutsideRoot => "character data outside the root element"
  | .foreignDoctype systemId => s!"DTD '{systemId}' does not declare the graphml element"
  | .unresolvedDoctype systemId => s!"DTD '{systemId}' could not be resolved"

/-- Why a document is not valid, or cannot be checked for want of a schema. -/
inductive ValidationError where
  | violation (cause : Violation) (position : Nat)
  | noRoot
  | schema (cause : SchemaError)
deriving DecidableEq, Repr

/-- The wording of a validation error. -/
def ValidationError.message : ValidationError → String
  | .violation cause position => cause.message ++ s!" (at byte {position})"
  | .noRoot => "document has no root element"
  | .schema cause => cause.message

end GraphMarkup.Validation
