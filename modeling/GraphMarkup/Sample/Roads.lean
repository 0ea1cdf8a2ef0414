import GraphMarkup.Document.StoredFile
import GraphMarkup.Document.Writer

/-!
# A network of roads

A worked example: towns with a size and optional tags, joined by roads with a
length and lanes, in a network with a label. The declarations name the members
that go into documents, and the factories make towns and roads from ids.
-/

namespace GraphMarkup.Sample

open GraphMarkup.Decimal
open GraphMarkup.Document
open GraphMarkup.Graph
open GraphMarkup.Attributes
open GraphMarkup.Value

/-- A vertex. -/
structure Town where
  name : String
  size : Int32 := 0
  tags : Option (List String) := none
deriving DecidableEq, Hashable, Repr

/-- An edge. -/
structure Road where
  id : String
  source : Town
  target : Town
  length : Binary .double
  lanes : List Int32 := []
  toll : Bool := false
deriving DecidableEq, Repr

instance : Endpoints Road Town where
  source := Road.source
  target := Road.target

/-- The attributes of the graph. -/
structure Network where
  label : String := ""
  revision : Int64 := 0
deriving DecidableEq, Repr

/-- The length of a road about which nothing is known. -/
def unitLength : Binary .double :=
  .ofCode false (Format.double.nearestCode 1 1)

namespace Town

/-- What a town says about its members. -/
def declaration : Declaration Town where
  typeName := "Town"
  members :=
    [{ name := "Size"
       type := .ofKind (.scalar .int)
       get? := some Town.size
       set? := some fun size town => { town with size := size }
       marking := .marked
       default? := some ⟨.ofKind (.scalar .int), (0 : Int32)⟩ },
     { name := "Tags"
       type := .ofKind (.nullable .string)
       get? := some Town.tags
       set? := some fun tags town => { town with tags := tags }
       marking := .marked
       default? := none },
     { name := "Name"
       type := .ofKind (.scalar .string)
       get? := some Town.name
       set? := some fun name town => { town with name := name }
       marking := .renamed "name"
       default? := none }]

end Town

namespace Road

/-- What a road says about its members. -/
def declaration : Declaration Road where
  typeName := "Road"
  members :=
    [{ name := "Length"
       type := .ofKind (.scalar .double)
       get? := some Road.length
       set? := some fun length road => { road with length := length }
       marking := .marked
       default? := some ⟨.ofKind (.scalar .double), unitLength⟩ },
     { name := "Lanes"
       type := .ofKind (.list .int)
       get? := some Road.lanes
       set? := some fun lanes road => { road with lanes := lanes }
       marking := .marked
       default? := none },
     { name := "Toll"
       type := .ofKind (.scalar .boolean)
       get? := some Road.toll
       set? := some fun toll road => { road with toll := toll }
       marking := .marked
       default? := some ⟨.ofKind (.scalar .boolean), false⟩ }]

end Road

namespace Network

/-- What a network says about its members. -/
def declaration : Declaration Network where
  typeName := "Network"
  members :=
    [{ name := "Label"
       type := .ofKind (.scalar .string)
       get? := some Network.label
       set? := some fun label network => { network with label := label }
       marking := .marked
       default? := none },
     { name := "Revision"
       type := .ofKind (.scalar .long)
       get? := some Network.revision
       set? := some fun revision network => { network with revision := revision }
       marking := .marked
       default? := some ⟨.ofKind (.scalar .long), (1 : Int64)⟩ }]

end Network

/-- Networks of roads. -/
def roadGraphType : GraphType Town Road Network where
  vertex := Town.declaration
  edge := Road.declaration
  graph := Network.declaration

/-- Towns are known by their names and roads by their ids. -/
def roadIdentities : Identities Town Road where
  vertex := Town.name
  edge _ road := road.id

/-- Make towns and roads from ids. -/
def roadFactories : Factories Town Road where
  vertex name := { name := name }
  edge source target id :=
    { id := id, source := source, target := target, length := unitLength }

end GraphMarkup.Sample
