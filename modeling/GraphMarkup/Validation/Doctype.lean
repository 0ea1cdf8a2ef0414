import GraphMarkup.Schema.Resolver
import GraphMarkup.Validation.Settings

/-!
# Document types

A document may name its document type definition by a system identifier, with
a public identifier in front of it or without. An internal subset in square
brackets does not count.
-/

namespace GraphMarkup.Validation

open GraphMarkup.Schema
open GraphMarkup.Text

/-- What every definition of graph documents contains. -/
def rootDeclaration : String :=
  "<!ELEMENT graphml"

/-- The first, third, fifth and so on of a list. -/
def everySecond {α : Type} : List α → List α
  | [] => []
  | [item] => [item]
  | item :: _ :: rest => item :: everySecond rest

/-- The quoted parts of a text: those between its first and second quote, its
third and fourth, and so on. -/
def quotedParts (chars : List Char) : List (List Char) :=
  everySecond ((chars.splitOnP fun char => char == '"' || char == '\'').drop 1)

/-- The characters of the system identifier: the first quoted part behind the
keyword of a system identifier, and the second behind that of a public one. -/
def systemIdChars? (content : List Char) : Option (List Char) :=
  let external := content.takeWhile (· != '[')
  match words external with
  | _ :: keyword :: _ =>
      if keyword = "SYSTEM".toList then (quotedParts external)[0]?
      else if keyword = "PUBLIC".toList then (quotedParts external)[1]?
      else none
  | _ => none

/-- The system identifier in the content of a document type declaration. -/
def systemId? (content : String) : Option String :=
  (systemIdChars? content.toList).map String.ofList

/-- Check that the definition a document names is one of graph documents. -/
def checkDoctype (resolver : Resolver) (settings : Settings) (content : String)
    (position : Nat) : Except Error Unit := do
  let some systemId := systemId? content | pure ()
  match ← resolver.resolve systemId with
  | some bytes =>
      match decodeUtf8 bytes with
      | .error _ => throw (.file .notText)
      | .ok definition =>
          if (cutAt? rootDeclaration.toList definition.toList).isNone then
            throw (.validation (.violation (.foreignDoctype systemId) position))
  | none =>
      if settings.requireDoctypeResolution then
        throw (.validation (.violation (.unresolvedDoctype systemId) position))

end GraphMarkup.Validation
