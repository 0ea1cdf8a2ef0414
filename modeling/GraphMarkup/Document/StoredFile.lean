import GraphMarkup.Document.Reader

/-!
# Stored files

A document may be kept in a file. An empty file is none, the text of a file
does not include a byte order mark, and a document in a file has to be text
as a whole before any of it is read.
-/

namespace GraphMarkup.Document

open GraphMarkup.Markup
open GraphMarkup.Text
open GraphMarkup.Validation

/-- A file that is not empty. -/
structure StoredFile where
  content : Bytes
  content_ne_nil : content ≠ []

namespace StoredFile

/-- The file at a place where `content?` is stored, if anything. -/
def load : (content? : Option Bytes) → Except Error StoredFile
  | none => .error (.file .notFound)
  | some [] => .error .emptyInput
  | some (first :: rest) => .ok ⟨first :: rest, by simp⟩

/-- The number of bytes in a file. -/
def size (file : StoredFile) : Nat :=
  file.content.length

/-- A description of a file. -/
def description (file : StoredFile) : String :=
  "File \x7b len: " ++ toString file.size ++ " \x7d"

/-- The text in a file. -/
def text (file : StoredFile) : Except Error String :=
  (decodeUtf8 (withoutByteOrderMark file.content)).mapError .encoding

/-- The bytes of the document at a place. An empty file lacks a root element. -/
def document (content? : Option Bytes) : Except Error Bytes :=
  match load content? with
  | .error .emptyInput => .error .rootNotFound
  | .error error => .error error
  | .ok file => encodeUtf8 <$> file.text

end StoredFile

variable {V E A G : Type} [Target G V E A]

/-- Read the document at a place onto a graph. -/
def readStored (type : GraphType V E A) (factories : Factories V E) (content? : Option Bytes)
    (graph : G) : Except Error Unit × G :=
  match StoredFile.document content? with
  | .error error => (.error error, graph)
  | .ok document => read type factories document graph

/-- Check the document at a place and read it if it is valid. -/
def readValidatedStored (resolver : Schema.Resolver) (settings : Settings)
    (type : GraphType V E A) (factories : Factories V E) (content? : Option Bytes)
    (graph : G) : Except Error Unit × G :=
  match StoredFile.document content? with
  | .error error => (.error error, graph)
  | .ok document => readValidated resolver settings type factories document graph

end GraphMarkup.Document
