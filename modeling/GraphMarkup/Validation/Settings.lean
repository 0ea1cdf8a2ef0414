/-!
# Settings of validation
-/

namespace GraphMarkup.Validation

/-- How documents are checked. -/
structure Settings where
  /-- The location of the root schema document. -/
  schema : String := "graphml.xsd"
  /-- Whether the document type definition that a document names has to be
  known. -/
  requireDoctypeResolution : Bool := true
  maxNestingDepth : Nat := 64
deriving DecidableEq, Repr

/-- The settings that let unknown document type definitions pass. -/
def Settings.lenient : Settings :=
  { requireDoctypeResolution := false }

end GraphMarkup.Validation
