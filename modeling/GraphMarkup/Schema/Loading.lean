import GraphMarkup.Schema.Document
import GraphMarkup.Schema.Resolver

/-!
# Loading schemas

A schema is loaded from a root document and the documents that are referred
to, directly or through others. Locations are taken in the order in which
they are first referred to, and each one once, whatever cycles the references
form.
-/

namespace GraphMarkup.Schema

open GraphMarkup.Validation

/-- All locations that loading `root` can come across: the root, and what the
documents of the resolver refer to. -/
def locations (resolver : Resolver) (root : String) : List String :=
  root :: resolver.documents.flatMap fun document => (statementOf document).references

/-- The document at a location, and what it states. -/
def statementAt (resolver : Resolver) (location : String) : Except Error Statement := do
  match ← resolver.resolve location with
  | some document => pure (statementOf document)
  | none => throw (.validation (.schema (.unresolved location)))

/-- Add a document to a schema. -/
def addDocument (schema : Schema) (location : String) (statement : Statement) :
    Except Error Schema :=
  match schema.addStatement statement with
  | .ok schema => .ok { schema with documentCount := schema.documentCount + 1 }
  | .error fault => .error (.validation (.schema (.faulty location fault)))

/-- The unseen locations once a location is loaded. -/
def without (location : String) (unseen : List String) : List String :=
  unseen.filter (· ≠ location)

theorem length_without_lt {unseen : List String} {location : String}
    (found : location ∈ unseen) : (without location unseen).length < unseen.length :=
  List.length_filter_lt_length_iff_exists.2 ⟨location, found, by simp⟩

/-- Load the pending locations one after the other, together with those that
they refer to. A location that is not among the unseen ones was loaded
before. -/
def loadFrom (resolver : Resolver) (unseen pending : List String) (schema : Schema) :
    Except Error Schema :=
  match pending with
  | [] => .ok schema
  | location :: pending =>
      if location ∈ unseen then
        match statementAt resolver location with
        | .error error => .error error
        | .ok statement =>
            match schema.addDocument location statement with
            | .error error => .error error
            | .ok schema =>
                loadFrom resolver (without location unseen)
                  (pending ++ statement.references) schema
      else loadFrom resolver unseen pending schema
termination_by (unseen.length, pending.length)
decreasing_by
  · apply Prod.Lex.left
    exact length_without_lt ‹_›
  · apply Prod.Lex.right
    simp

/-- Load a root document and every document that it refers to. -/
def load (resolver : Resolver) (root : String) : Except Error Schema :=
  loadFrom resolver (locations resolver root) [root] {}

end GraphMarkup.Schema
