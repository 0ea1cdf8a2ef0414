import GraphMarkup.Markup.Attribute
import GraphMarkup.Markup.Escape

/-!
# Events

Reading a document yields events: tags, character data and the rest of the
markup. A trace holds the events of a whole document in order, each with its
position, and says how the reading ends. Every reader of documents is a
function on traces, so an error in the document matters to a reader exactly
if it comes to the place of the error.
-/

namespace GraphMarkup.Markup

open GraphMarkup.Text

/-- Markup that does not end, or begins like no kind of markup. -/
inductive SyntaxError where
  | unknownMarkup
  | unclosedInstruction
  | unclosedComment
  | unclosedDoctype
  | unclosedCData
  | unclosedTag
deriving DecidableEq, Repr

/-- The wording of a syntax error. -/
def SyntaxError.message : SyntaxError → String
  | .unknownMarkup => "unknown or missed symbol in markup"
  | .unclosedInstruction =>
      "processing instruction or xml declaration not closed: `?>` not found before end of input"
  | .unclosedComment => "comment not closed: `-->` not found before end of input"
  | .unclosedDoctype => "DOCTYPE not closed: `>` not found before end of input"
  | .unclosedCData => "CDATA not closed: `]]>` not found before end of input"
  | .unclosedTag => "tag not closed: `>` not found before end of input"

/-- Complete markup at a place where it may not stand. -/
inductive StructureError where
  | mismatchedEnd (expected found : Bytes)
  | unmatchedEnd (found : Bytes)
  | missingDoctypeName
deriving DecidableEq, Repr

/-- A name as messages show it: nothing if it is not UTF-8. -/
def shownName (name : Bytes) : String :=
  match decodeUtf8 name with
  | .ok text => text
  | .error _ => ""

/-- The wording of a structure error. -/
def StructureError.message : StructureError → String
  | .mismatchedEnd expected found =>
      "expected `</" ++ shownName expected ++ ">`, but `</" ++ shownName found ++ ">` was found"
  | .unmatchedEnd found =>
      "close tag `</" ++ shownName found ++ ">` does not match any open tag"
  | .missingDoctypeName => "`<!DOCTYPE>` declaration does not contain a name of a document type"

/-- A declaration of one of the names that are reserved for namespaces. -/
inductive NamespaceError where
  | xmlBound (uri : Bytes)
  | xmlnsBound (uri : Bytes)
  | boundToXml (qualifier : Bytes)
  | boundToXmlns (qualifier : Bytes)
deriving DecidableEq, Repr

/-- The namespace of the qualifier `xml`. -/
def xmlNamespace : String :=
  "http://www.w3.org/XML/1998/namespace"

/-- The namespace of the qualifier `xmlns`. -/
def xmlnsNamespace : String :=
  "http://www.w3.org/2000/xmlns/"

/-- Bytes as messages show them: quoted, and in hexadecimal if they are not
printable. -/
def shownBytes (bytes : Bytes) : String :=
  let shown (byte : UInt8) : String :=
    if byte == byteOf '"' then "\\\""
    else if 0x20 ≤ byte && byte ≤ 0x7E then String.singleton (Char.ofNat byte.toNat)
    else "0x" ++ String.ofList ((Nat.toDigits 16 byte.toNat).map Char.toUpper)
  "\"" ++ String.join (bytes.map shown) ++ "\""

/-- The wording of a namespace error. -/
def NamespaceError.message : NamespaceError → String
  | .xmlBound uri =>
      "the namespace prefix 'xml' cannot be bound to '" ++ shownBytes uri ++ "'"
  | .xmlnsBound uri =>
      "the namespace prefix 'xmlns' cannot be bound to '" ++ shownBytes uri ++ "'"
  | .boundToXml qualifier =>
      "the namespace prefix '" ++ shownBytes qualifier ++ "' cannot be bound to '" ++
        xmlNamespace ++ "'"
  | .boundToXmlns qualifier =>
      "the namespace prefix '" ++ shownBytes qualifier ++ "' cannot be bound to '" ++
        xmlnsNamespace ++ "'"

/-- Why the markup of a document cannot be read. -/
inductive MarkupError where
  | malformed (cause : SyntaxError)
  | illFormed (cause : StructureError)
  | binding (cause : NamespaceError)
  | encoding (cause : Utf8Error)
  | escape (cause : EscapeError)
deriving DecidableEq, Repr

/-- The wording of a markup error. -/
def MarkupError.message : MarkupError → String
  | .malformed cause => "syntax error: " ++ cause.message
  | .illFormed cause => "ill-formed document: " ++ cause.message
  | .binding cause => cause.message
  | .encoding cause => "cannot decode input using UTF-8: " ++ cause.message
  | .escape cause => cause.message

/-- The text that raw character data or a raw attribute value stands for. -/
def rawText (raw : Bytes) : Except MarkupError String :=
  match decodeUtf8 raw with
  | .error cause => .error (.encoding cause)
  | .ok text => (unescape text).mapError .escape

/-- One piece of a document. -/
inductive Event where
  | opening (tag : Tag)
  /-- An element without content, written as one tag. -/
  | empty (tag : Tag)
  | closing (name : Bytes)
  | text (raw : Bytes)
  | cdata (content : Bytes)
  | comment (content : Bytes)
  | instruction (content : Bytes)
  | doctype (content : Bytes)
deriving DecidableEq, Repr

/-- What reading a document yields. -/
inductive Trace (α : Type) where
  /-- The input is used up. -/
  | ended
  /-- The markup from `start` on is faulty; reading stopped at `stop`. -/
  | failed (error : MarkupError) (start stop : Nat)
  /-- An item at `start`, and what comes behind it. -/
  | item (value : α) (start : Nat) (rest : Trace α)
deriving DecidableEq, Repr

/-- The number of items in a trace. -/
def Trace.length {α : Type} : Trace α → Nat
  | .ended => 0
  | .failed .. => 0
  | .item _ _ rest => rest.length + 1

end GraphMarkup.Markup
