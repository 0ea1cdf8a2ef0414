import GraphMarkup.Graph.Adjacency
import GraphMarkup.Attributes.Codec
import GraphMarkup.Validation.Violation

/-!
# Errors

Every way in which reading, writing or checking a document can fail, by
cause. The wording is derived from the cause in one place.
-/

namespace GraphMarkup

open GraphMarkup.Graph
open GraphMarkup.Markup
open GraphMarkup.Attributes
open GraphMarkup.Text
open GraphMarkup.Validation

/-- Why a file cannot be used. -/
inductive FileError where
  | notFound
  /-- The file should hold text, but its bytes are not UTF-8. -/
  | notText
  | failed (reason : String)
deriving DecidableEq, Repr

/-- The wording of a file error. -/
def FileError.message : FileError → String
  | .notFound => "No such file or directory (os error 2)"
  | .notText => "stream did not contain valid UTF-8"
  | .failed reason => reason

/-- Where a document may end too early. -/
inductive Unfinished where
  | skippedElement
  | dataElement
  /-- An element with data of its own. -/
  | element (name : String)
deriving DecidableEq, Repr

/-- The wording of a document that ends too early. -/
def Unfinished.message : Unfinished → String
  | .skippedElement => "document ends inside a skipped element"
  | .dataElement => "document ends inside a data element"
  | .element name => s!"document ends inside a {name} element"

/-- Why an operation on a document fails. -/
inductive Error where
  | configuration (cause : ConfigurationError)
  | data (cause : DataError)
  | undeclaredQualifier (qualifier : Bytes)
  | unfinished (place : Unfinished)
  | rootNotFound
  | graphNotFound
  | missingAttribute (element attributeName : String)
  | vertexNotFound (id : String)
  | unexpectedElement (name : String)
  | validation (cause : ValidationError)
  | emptyInput
  | file (cause : FileError)
  | markup (cause : MarkupError)
  | attributes (cause : AttributeError)
  | encoding (cause : Utf8Error)
  | graph (cause : EdgeError)
  /-- A failure in code that the caller supplies. -/
  | other (reason : String)
deriving DecidableEq, Repr

/-- The wording of an error. -/
def Error.message : Error → String
  | .configuration cause => cause.message
  | .data cause => cause.message
  | .undeclaredQualifier qualifier =>
      "undeclared namespace prefix '" ++ decodeUtf8Lossy qualifier ++ "'"
  | .unfinished place => place.message
  | .rootNotFound => "graphml node not found"
  | .graphNotFound => "graph node not found"
  | .missingAttribute element attributeName =>
      s!"{element} element is missing the required '{attributeName}' attribute"
  | .vertexNotFound id => s!"could not find vertex {id}"
  | .unexpectedElement name => s!"invalid reader position: unexpected element '{name}'"
  | .validation cause => "validation failed: " ++ cause.message
  | .emptyInput => "Provided input was empty"
  | .file cause => cause.message
  | .markup cause => cause.message
  | .attributes cause => cause.message
  | .encoding cause => cause.message
  | .graph cause => cause.message
  | .other reason => reason

end GraphMarkup
