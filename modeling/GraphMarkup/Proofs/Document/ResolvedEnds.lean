import GraphMarkup.Proofs.Attributes.Entries
import GraphMarkup.Proofs.Document.Absences
import GraphMarkup.Proofs.Graph.Refinement

/-!
# Ends that the reader has resolved

The reader knows vertices by their ids, and the graph knows them by what they are. Several ids
may stand for equal vertices, and an id for one vertex after the other; the graph merges the
former and keeps all of the latter. Yet each vertex that the reader knows belongs to the graph,
from the first child of the graph element to the last. So an edge that is made between such
vertices is never refused by the graph, unless it is made or set to end elsewhere.
-/

namespace GraphMarkup.Attributes

variable {α : Type}

/-! ## Setters that change nothing -/

/-- Setting marked members leaves an instance the same, in some respect. -/
def Declaration.Keeps (declaration : Declaration α) (Same : α → α → Prop) : Prop :=
  ∀ member ∈ declaration.members, member.isMarked → ∀ set, member.set? = some set →
    ∀ value owner, Same (set value owner) owner

/-- Setting properties leaves an instance the same, in some respect. -/
def Codec.Keeps (codec : Codec α) (Same : α → α → Prop) : Prop :=
  ∀ property ∈ codec.properties, ∀ value owner, Same (property.set value owner) owner

variable {codec : Codec α} {Same : α → α → Prop}

theorem Declaration.Keeps.of_compile {declaration : Declaration α} (keeps : declaration.Keeps Same)
    (compiled : declaration.compile = .ok codec) : codec.Keeps Same := by
  intro property inside
  obtain ⟨member, isMember, compiles⟩ :=
    exists_of_mem_partner (forall₂_of_compile compiled) inside
  obtain ⟨isMember, marked⟩ := List.mem_filter.mp isMember
  have same := keeps member isMember marked
  obtain ⟨-, -⟩ := compiles
  exact same _ rfl

theorem Codec.Keeps.of_read {key text : String} {owner result : α} (keeps : codec.Keeps Same)
    (read : codec.read key text owner = .ok result) : Same result owner := by
  obtain ⟨property, found, value, -, rfl⟩ := Codec.exists_of_read read
  exact keeps property (List.mem_of_find?_eq_some found) value owner

end GraphMarkup.Attributes

namespace GraphMarkup.Document

open GraphMarkup.Attributes
open GraphMarkup.Graph
open GraphMarkup.Markup
open GraphMarkup.Text

section

variable {α : Type} {codec : Codec α} {Same : α → α → Prop} {namespace? : Option Bytes}
  {element : String} {owner result : α} {tag : Tag} {isEmpty : Bool} {trace rest : Trace Resolved}

theorem same_of_readDataElement (keeps : codec.Keeps Same)
    (read : readDataElement codec owner tag isEmpty trace = .ok (result, rest)) :
    Same result owner := by
  simp only [readDataElement, bind_eq_ok_iff, pure_eq_ok_iff, mapError_eq_ok_iff] at read
  obtain ⟨key, -, text, -, changed, read, same⟩ := read
  cases same
  exact keeps.of_read read

variable (equivalence : Equivalence Same)

include equivalence

/-- What setters leave alone, the data of an element do not change. -/
theorem same_of_readData (keeps : codec.Keeps Same)
    (read : readData namespace? codec element owner trace = .ok (result, rest)) :
    Same result owner := by
  fun_induction readData namespace? codec element owner trace with
  | case1 | case2 | case3 | case4 | case7 => cases read
  | case5 owner resolved start content tag found? isEmpty opening named changed behind data ih =>
    exact equivalence.trans (ih read) (same_of_readDataElement keeps data)
  | case6 owner resolved start content tag found? opening other ih => exact ih read
  | case8 owner resolved start content tag found? isEmpty opening other open_ behind skipped ih =>
    exact ih read
  | case9 =>
    cases read
    exact equivalence.refl _
  | case10 owner resolved start rest text leaf ih => exact ih read
  | case11 owner resolved start rest leaf ih => exact ih read

/-- What setters leave alone, neither defaults nor data change. -/
theorem same_of_readOwner (keeps : codec.Keeps Same)
    (read : readOwner namespace? codec element isEmpty owner trace = .ok (result, rest)) :
    Same result owner := by
  have defaults := Codec.same_foldl_applyDefault Same equivalence keeps owner
  rw [readOwner] at read
  split at read
  · cases read
    exact defaults
  · exact equivalence.trans (same_of_readData equivalence keeps read) defaults

end

/-! ## Ends of edges -/

section

variable {V E A : Type} [BEq V] [Endpoints E V]

/-- An edge ends in two vertices, up to equality. -/
structure EndsIn (edge : E) (source target : V) : Prop where
  source : Endpoints.source edge == source
  target : Endpoints.target edge == target

/-- An edge ends where another one does. -/
def SameEnds (first second : E) : Prop :=
  EndsIn first (Endpoints.source second) (Endpoints.target second)

theorem equivalence_sameEnds [EquivBEq V] : Equivalence (SameEnds (E := E) (V := V)) where
  refl _ := ⟨BEq.rfl, BEq.rfl⟩
  symm same := ⟨BEq.symm same.source, BEq.symm same.target⟩
  trans first second :=
    ⟨BEq.trans first.source second.source, BEq.trans first.target second.target⟩

theorem SameEnds.endsIn [EquivBEq V] {first second : E} {source target : V}
    (same : SameEnds first second) (ends : EndsIn second source target) :
    EndsIn first source target :=
  ⟨BEq.trans same.source ends.source, BEq.trans same.target ends.target⟩

/-- Edges are made to end in the vertices that they are made from. -/
def Factories.Faithful (factories : Factories V E) : Prop :=
  ∀ source target id, EndsIn (factories.edge source target id) source target

/-- The same factories are faithful in every turn. -/
theorem Factories.Faithful.throughout {factories : Factories V E} (faithful : factories.Faithful)
    (elements : List ChildElement) :
    ∀ turn ∈ elements.map (Prod.mk factories), turn.1.Faithful := by
  intro turn inside
  obtain ⟨element, -, rfl⟩ := List.mem_map.mp inside
  exact faithful

/-- An edge that was read ends in vertices that are known. -/
def Child.EndsAmong (vertices : VertexTable V) : Child V E → Prop
  | .edge added => ∃ source ∈ vertices, ∃ target ∈ vertices, EndsIn added source.2 target.2
  | .node .. => True
  | .data .. => True

variable {codecs : Codecs V E A} {factories : Factories V E} {namespace? : Option Bytes}
  {vertices : VertexTable V} {tag : Tag} {isEmpty : Bool} {trace rest : Trace Resolved}
  {child : Child V E}

omit [BEq V] [Endpoints E V] in
theorem exists_mem_of_vertexOf {id : String} {vertex : V}
    (found : vertexOf vertices id = .ok vertex) : ∃ entry ∈ vertices, entry.2 = vertex := by
  rw [vertexOf] at found
  split at found
  · rename_i other known
    cases found
    obtain ⟨front, back, rfl, -⟩ := List.lookup_eq_some_iff.mp known
    exact ⟨(id, vertex), List.mem_append_right front List.mem_cons_self, rfl⟩
  · cases found

/-- An edge is read between vertices that are known. -/
theorem endsAmong_of_readEdge [EquivBEq V] (keeps : codecs.edge.Keeps SameEnds)
    (faithful : factories.Faithful)
    (read : readEdge codecs factories namespace? vertices tag isEmpty trace = .ok (child, rest)) :
    child.EndsAmong vertices := by
  simp only [readEdge, bind_eq_ok_iff, pure_eq_ok_iff] at read
  obtain ⟨id, -, sourceId, -, targetId, -, source, foundSource, target, foundTarget,
    ⟨edge, behind⟩, owned, same⟩ := read
  cases same
  obtain ⟨sourceEntry, sourceKnown, rfl⟩ := exists_mem_of_vertexOf foundSource
  obtain ⟨targetEntry, targetKnown, rfl⟩ := exists_mem_of_vertexOf foundTarget
  have same : SameEnds edge (factories.edge sourceEntry.2 targetEntry.2 id) :=
    same_of_readOwner equivalence_sameEnds keeps owned
  exact ⟨sourceEntry, sourceKnown, targetEntry, targetKnown, same.endsIn (faithful _ _ _)⟩

theorem endsAmong_of_readChild [EquivBEq V] (keeps : codecs.edge.Keeps SameEnds)
    (faithful : factories.Faithful)
    (read : readChild codecs factories namespace? vertices tag isEmpty trace = .ok (child, rest)) :
    child.EndsAmong vertices := by
  rw [readChild] at read
  split at read
  · cases read
  split at read
  · simp only [readNode, bind_eq_ok_iff, pure_eq_ok_iff] at read
    obtain ⟨id, -, vertex, -, same⟩ := read
    cases same
    trivial
  split at read
  · exact endsAmong_of_readEdge keeps faithful read
  split at read
  · simp only [readGraphData, bind_eq_ok_iff, pure_eq_ok_iff] at read
    obtain ⟨key, -, text, -, same⟩ := read
    cases same
    trivial
  · cases read

end

/-! ## Errors that the graph gives -/

/-- An error with which the graph refuses an edge. -/
def IsRefusal : Error → Prop
  | .graph _ => True
  | _ => False

theorem IsOfLayout.not_isRefusal {error : Error} (ofLayout : IsOfLayout error) :
    ¬IsRefusal error := by
  cases error with
  | graph => cases ofLayout
  | _ => exact id

section

variable {error : Error} {tag : Tag} {element : String} {isEmpty : Bool} {trace : Trace Resolved}

theorem not_isRefusal_of_requiredText {attributeName : String}
    (failed : requiredText tag element attributeName = .error error) : ¬IsRefusal error := by
  rw [requiredText] at failed
  split at failed
  · cases failed
    exact id
  · cases failed
    exact id
  · obtain ⟨cause, -, rfl⟩ := mapError_eq_error_iff.mp failed
    exact id

variable {α : Type} {codec : Codec α} {owner : α} {namespace? : Option Bytes}

theorem not_isRefusal_of_readDataElement
    (failed : readDataElement codec owner tag isEmpty trace = .error error) :
    ¬IsRefusal error := by
  simp only [readDataElement, bind_eq_error_iff] at failed
  rcases failed with missing | ⟨key, -, unread | ⟨text, -, unread | ⟨changed, -, failed⟩⟩⟩
  · exact not_isRefusal_of_requiredText missing
  · exact (isOfLayout_of_elementText unread).not_isRefusal
  · obtain ⟨cause, -, rfl⟩ := mapError_eq_error_iff.mp unread
    exact id
  · exact absurd failed pure_ne_error

theorem not_isRefusal_of_readData
    (failed : readData namespace? codec element owner trace = .error error) :
    ¬IsRefusal error := by
  fun_induction readData namespace? codec element owner trace with
  | case1 | case2 =>
    cases failed
    exact id
  | case3 owner resolved start rest cause unread =>
    cases failed
    exact (isOfMarkup_of_contentOf unread).isOfLayout.not_isRefusal
  | case4 owner resolved start content tag found? isEmpty opening named cause unread =>
    cases failed
    exact not_isRefusal_of_readDataElement unread
  | case5 owner resolved start content tag found? isEmpty opening named changed behind data ih =>
    exact ih failed
  | case6 owner resolved start content tag found? opening other ih => exact ih failed
  | case7 owner resolved start content tag found? isEmpty opening other open_ cause unended =>
    cases failed
    exact (isOfLayout_of_skip unended).not_isRefusal
  | case8 owner resolved start content tag found? isEmpty opening other open_ behind skipped ih =>
    exact ih failed
  | case9 => cases failed
  | case10 owner resolved start rest text leaf ih => exact ih failed
  | case11 owner resolved start rest leaf ih => exact ih failed

theorem not_isRefusal_of_readOwner
    (failed : readOwner namespace? codec element isEmpty owner trace = .error error) :
    ¬IsRefusal error := by
  rw [readOwner] at failed
  split at failed
  · cases failed
  · exact not_isRefusal_of_readData failed

theorem not_isRefusal_of_vertexOf {V : Type} {vertices : VertexTable V} {vertexName : String}
    (failed : vertexOf vertices vertexName = .error error) : ¬IsRefusal error := by
  rw [vertexOf] at failed
  split at failed
  · cases failed
  · cases failed
    exact id

variable {V E A : Type} {codecs : Codecs V E A} {factories : Factories V E}
  {vertices : VertexTable V}

theorem not_isRefusal_of_readNode
    (failed : readNode codecs factories namespace? tag isEmpty trace = .error error) :
    ¬IsRefusal error := by
  simp only [readNode, bind_eq_error_iff] at failed
  rcases failed with missing | ⟨id, -, unread | ⟨_, -, failed⟩⟩
  · exact not_isRefusal_of_requiredText missing
  · exact not_isRefusal_of_readOwner unread
  · exact absurd failed pure_ne_error

theorem not_isRefusal_of_readEdge
    (failed : readEdge codecs factories namespace? vertices tag isEmpty trace = .error error) :
    ¬IsRefusal error := by
  simp only [readEdge, bind_eq_error_iff] at failed
  rcases failed with missing | ⟨id, -, missing | ⟨sourceId, -, missing | ⟨targetId, -,
    unknown | ⟨source, -, unknown | ⟨target, -, unread | ⟨_, -, failed⟩⟩⟩⟩⟩⟩
  · exact not_isRefusal_of_requiredText missing
  · exact not_isRefusal_of_requiredText missing
  · exact not_isRefusal_of_requiredText missing
  · exact not_isRefusal_of_vertexOf unknown
  · exact not_isRefusal_of_vertexOf unknown
  · exact not_isRefusal_of_readOwner unread
  · exact absurd failed pure_ne_error

theorem not_isRefusal_of_readGraphData
    (failed : (readGraphData tag isEmpty trace : Except Error (Child V E × Trace Resolved)) =
      .error error) : ¬IsRefusal error := by
  simp only [readGraphData, bind_eq_error_iff] at failed
  rcases failed with missing | ⟨key, -, unread | ⟨_, -, failed⟩⟩
  · exact not_isRefusal_of_requiredText missing
  · exact (isOfLayout_of_elementText unread).not_isRefusal
  · exact absurd failed pure_ne_error

/-- A child is read without the graph. -/
theorem not_isRefusal_of_readChild
    (failed : readChild codecs factories namespace? vertices tag isEmpty trace = .error error) :
    ¬IsRefusal error := by
  rw [readChild] at failed
  split at failed
  · cases failed
    exact id
  split at failed
  · exact not_isRefusal_of_readNode failed
  split at failed
  · exact not_isRefusal_of_readEdge failed
  split at failed
  · exact not_isRefusal_of_readGraphData failed
  · cases failed
    exact id

end

/-! ## Vertices that are known belong to the graph -/

section

variable {V E A : Type} [BEq V] [Hashable V] [Endpoints E V] {codecs : Codecs V E A}
  {factories : Factories V E} {namespace? : Option Bytes}
  {filling before : Filling (AdjacencyGraph V E A) V}

/-- The vertices that are known by an id belong to the graph. -/
def Filling.Anchored (filling : Filling (AdjacencyGraph V E A) V) : Prop :=
  ∀ entry ∈ filling.vertices, filling.graph.containsVertex entry.2

/-- What comes of filling a graph: the vertices that are known belong to it, or there is an error,
which is not that the graph refuses an edge. -/
def StaysAnchored : Except Error (Filling (AdjacencyGraph V E A) V) → Prop
  | .ok filling => filling.Anchored
  | .error error => ¬IsRefusal error

/-- The effects of elements in order, each of which is read with factories of its own. -/
def fill (codecs : Codecs V E A) (namespace? : Option Bytes)
    (before : Filling (AdjacencyGraph V E A) V) (turns : List (Factories V E × ChildElement)) :
    Except Error (Filling (AdjacencyGraph V E A) V) :=
  turns.foldlM (fun filling turn => childEffect codecs turn.1 namespace? filling turn.2) before

omit [Endpoints E V] in
/-- At first no vertex is known. -/
theorem anchored_nil (graph : AdjacencyGraph V E A) :
    (⟨graph, []⟩ : Filling (AdjacencyGraph V E A) V).Anchored :=
  List.forall_mem_nil _

/-- A run with the same factories throughout. -/
theorem fill_map_mk (factories : Factories V E) (elements : List ChildElement) :
    fill codecs namespace? before (elements.map (Prod.mk factories)) =
      elements.foldlM (childEffect codecs factories namespace?) before := by
  rw [fill, List.foldlM_map]

/-- An element of the vocabulary has the effect of the child that is read from it. -/
theorem childEffect_eq_bind (element : ChildElement) :
    childEffect codecs factories namespace? filling element =
      if element.uri? = namespace? then
        readChild codecs factories namespace? filling.vertices element.tag element.isEmpty
            element.content >>= fun read =>
          (addChild codecs read.1 filling).1 >>= fun _ => .ok (addChild codecs read.1 filling).2
      else
        leaveOut element.isEmpty element.content >>= fun _ => .ok filling :=
  rfl

section

variable [EquivBEq V] [LawfulHashable V]

namespace Filling.Anchored

/-- A child leaves the vertices that were known in the graph, and that of a node element is added
under its id whatever was known by the id before. -/
theorem addChild (anchored : filling.Anchored) (child : Child V E) :
    (addChild codecs child filling).2.Anchored := by
  intro entry known
  cases child with
  | node id vertex =>
    change (filling.graph.addVertex vertex).2.containsVertex entry.2
    rw [AdjacencyGraph.containsVertex_addVertex]
    rcases List.mem_cons.mp known with rfl | earlier
    · rw [BEq.rfl, Bool.true_or]
    · rw [anchored entry earlier, Bool.or_true]
  | edge edge =>
    change (filling.graph.addEdge edge).2.containsVertex entry.2
    rw [AdjacencyGraph.containsVertex_addEdge]
    exact anchored entry known
  | data key text =>
    rw [Document.addChild] at known ⊢
    split at known <;> exact anchored entry known

/-- An edge between vertices that are known is not refused. -/
theorem not_isRefusal_of_addChild (anchored : filling.Anchored) {child : Child V E}
    (among : child.EndsAmong filling.vertices) {error : Error}
    (failed : (Document.addChild codecs child filling).1 = .error error) : ¬IsRefusal error := by
  cases child with
  | node id vertex => cases failed
  | edge edge =>
    obtain ⟨source, sourceKnown, target, targetKnown, ends⟩ := among
    have sourceInside : filling.graph.containsVertex (Endpoints.source edge) := by
      rw [AdjacencyGraph.containsVertex_congr ends.source]
      exact anchored source sourceKnown
    have targetInside : filling.graph.containsVertex (Endpoints.target edge) := by
      rw [AdjacencyGraph.containsVertex_congr ends.target]
      exact anchored target targetKnown
    obtain ⟨taken, added⟩ :=
      (filling.graph.exists_addEdge_eq_ok_iff edge).mpr ⟨sourceInside, targetInside⟩
    simp only [Document.addChild, Target.addEdge, added] at failed
    cases failed
  | data key text =>
    rw [Document.addChild] at failed
    split at failed
    · cases failed
    · cases failed
      exact id

/-- One element keeps the vertices that are known in the graph, and its edge is not refused. -/
theorem childEffect (anchored : filling.Anchored) (keeps : codecs.edge.Keeps SameEnds)
    (faithful : factories.Faithful) (element : ChildElement) :
    StaysAnchored (childEffect codecs factories namespace? filling element) := by
  rw [childEffect_eq_bind]
  split
  · cases read : readChild codecs factories namespace? filling.vertices element.tag
      element.isEmpty element.content with
    | error error => exact not_isRefusal_of_readChild read
    | ok found =>
      have among := endsAmong_of_readChild keeps faithful read
      change StaysAnchored ((Document.addChild codecs found.1 filling).1 >>= _)
      cases added : (Document.addChild codecs found.1 filling).1 with
      | error error => exact anchored.not_isRefusal_of_addChild among added
      | ok _ => exact anchored.addChild found.1
  · cases left : leaveOut element.isEmpty element.content with
    | error error => exact (isOfLayout_of_leaveOut left).not_isRefusal
    | ok rest => exact anchored

/-- However many elements have had their effects, the vertices that are known belong to the graph,
and no edge has been refused. -/
theorem fill (anchored : before.Anchored) (keeps : codecs.edge.Keeps SameEnds)
    {turns : List (Factories V E × ChildElement)} (faithful : ∀ turn ∈ turns, turn.1.Faithful) :
    StaysAnchored (fill codecs namespace? before turns) := by
  induction turns generalizing before with
  | nil => exact anchored
  | cons turn turns ih =>
    obtain ⟨first, others⟩ := List.forall_mem_cons.mp faithful
    have stays : StaysAnchored (Document.childEffect codecs turn.1 namespace? before turn.2) :=
      anchored.childEffect keeps first turn.2
    rw [Document.fill, List.foldlM_cons]
    cases taken : Document.childEffect codecs turn.1 namespace? before turn.2 with
    | error error =>
      rw [taken] at stays
      exact stays
    | ok next =>
      rw [taken] at stays
      exact ih stays others

end Filling.Anchored

/-! ## Vertices that are known are enumerated -/

/-- The vertices that are known by an id are equal to vertices that the graph enumerates. -/
def Filling.Listed (filling : Filling (AdjacencyGraph V E A) V) : Prop :=
  ∀ entry ∈ filling.vertices, ∃ vertex ∈ filling.graph.listing.vertices, vertex == entry.2

theorem Filling.Anchored.listed (anchored : filling.Anchored)
    (consistent : filling.graph.Consistent) : filling.Listed := by
  intro entry known
  have contained := anchored entry known
  rw [consistent.observedAs.containsVertex] at contained
  exact List.any_eq_true.mp contained

theorem consistent_addChild (consistent : filling.graph.Consistent) (child : Child V E) :
    (addChild codecs child filling).2.graph.Consistent := by
  cases child with
  | node id vertex => exact (consistent.addVertex vertex).consistent
  | edge edge => exact (consistent.addEdge edge).consistent
  | data key text =>
    rw [addChild]
    split
    · exact (consistent.perform (.setAttributes _)).consistent
    · exact consistent

theorem consistent_of_childEffect (consistent : before.graph.Consistent) {element : ChildElement}
    (taken : childEffect codecs factories namespace? before element = .ok filling) :
    filling.graph.Consistent := by
  rw [childEffect_eq_bind] at taken
  split at taken
  · obtain ⟨⟨child, rest⟩, -, taken⟩ := bind_eq_ok_iff.mp taken
    obtain ⟨-, -, taken⟩ := bind_eq_ok_iff.mp taken
    cases taken
    exact consistent_addChild consistent child
  · obtain ⟨rest, -, taken⟩ := bind_eq_ok_iff.mp taken
    cases taken
    exact consistent

theorem consistent_of_fill (consistent : before.graph.Consistent)
    {turns : List (Factories V E × ChildElement)}
    (filled : fill codecs namespace? before turns = .ok filling) : filling.graph.Consistent := by
  induction turns generalizing before with
  | nil =>
    cases filled
    exact consistent
  | cons turn turns ih =>
    rw [fill, List.foldlM_cons] at filled
    obtain ⟨next, taken, filled⟩ := bind_eq_ok_iff.mp filled
    exact ih (consistent_of_childEffect consistent taken) filled

/-! ## Reading -/

omit [BEq V] [Hashable V] [Endpoints E V] [EquivBEq V] [LawfulHashable V] in
/-- The codec of edges is that of their declaration. -/
theorem GraphType.edge_of_compile {type : GraphType V E A} (compiled : type.compile = .ok codecs) :
    type.edge.compile = .ok codecs.edge := by
  obtain ⟨graph, -, compiled⟩ := bind_eq_ok_iff.mp compiled
  obtain ⟨vertex, -, compiled⟩ := bind_eq_ok_iff.mp compiled
  obtain ⟨edge, ofEdge, made⟩ := bind_eq_ok_iff.mp compiled
  cases made
  exact ofEdge

/-- What ends the reading of a document is not that the graph refuses an edge. -/
theorem not_isRefusal_of_readTrace (keeps : codecs.edge.Keeps SameEnds)
    (faithful : factories.Faithful) {trace : Trace Resolved} {graph : AdjacencyGraph V E A}
    {error : Error} (failed : (readTrace codecs factories trace graph).1 = .error error) :
    ¬IsRefusal error := by
  cases found : graphElement? trace with
  | none => exact (isOfLayout_of_graphElement?_eq_none found failed).not_isRefusal
  | some inside =>
    obtain ⟨namespace?, elements⟩ := inside
    obtain ⟨count, filling, stops, -⟩ := readTrace_stopsAt codecs factories found graph
    cases next : elements[count]? with
    | none => exact (stops.markup next error failed).isOfLayout.not_isRefusal
    | some element =>
      obtain ⟨reported, fails, same⟩ := stops.error element next
      cases failed.symm.trans same
      have anchored : StaysAnchored (.ok filling) := by
        rw [← stops.effects, ← fill_map_mk]
        exact (anchored_nil _).fill keeps (faithful.throughout _)
      have stays : StaysAnchored (childEffect codecs factories namespace? filling element) :=
        Filling.Anchored.childEffect anchored keeps faithful element
      rw [fails] at stays
      exact stays

/-- If edges are made to end in the vertices that they are made from, and setting their members
leaves the ends alone, then a document is never refused for an edge, whatever the graph and however
the vertices are made. The graph is filled by one child of the graph element after the other. Behind
any number of them, the vertices that are known by an id belong to the graph and are equal to some
that it enumerates; this also holds if each child is read with factories of its own, which may
depend on what was made before. -/
theorem read_staysAnchored {type : GraphType V E A} {factories : Factories V E}
    (keeps : type.edge.Keeps SameEnds) (faithful : factories.Faithful) (document : Bytes)
    (graph : AdjacencyGraph V E A) :
    (∀ error, (read type factories document graph).1 = .error error → ¬IsRefusal error) ∧
      ∀ codecs, type.compile = .ok codecs →
        IsPartialReading codecs factories (Markup.read document) graph
            (read type factories document graph) ∧
          ∀ namespace? turns, (∀ turn ∈ turns, turn.1.Faithful) →
            let filled := fill codecs namespace? ⟨applyGraphDefaults codecs.graph graph, []⟩ turns
            StaysAnchored filled ∧
              (graph.Reachable → ∀ filling, filled = .ok filling → filling.Listed) := by
  cases compiled : type.compile with
  | error cause =>
    refine ⟨?_, ?_⟩
    · intro error failed
      rw [read, compiled] at failed
      cases failed
      exact id
    · rintro codecs ⟨⟩
  | ok codecs =>
    have same : read type factories document graph =
        readTrace codecs factories (Markup.read document) graph := by
      rw [read, compiled]
    have codecKeeps : codecs.edge.Keeps SameEnds :=
      keeps.of_compile (GraphType.edge_of_compile compiled)
    rw [same]
    refine ⟨fun error => not_isRefusal_of_readTrace codecKeeps faithful, ?_⟩
    rintro _ ⟨⟩
    refine ⟨readTrace_isPartialReading isSteady_adjacencyGraph codecs factories _ graph, ?_⟩
    intro namespace? turns faithful filled
    have stays : StaysAnchored filled := (anchored_nil _).fill codecKeeps faithful
    refine ⟨stays, ?_⟩
    intro reachable filling done
    rw [done] at stays
    have consistent : (applyGraphDefaults codecs.graph graph).Consistent :=
      (reachable.consistent.perform (.setAttributes _)).consistent
    exact stays.listed (consistent_of_fill consistent done)

end

end

/-! ## Vertices that are merged -/

namespace Lengths

/-- Vertices are numbers, and edges between them may have a toll. -/
def graphType : GraphType Nat (TaggedEdge Nat Bool) Unit where
  vertex := .none Nat "Length"
  edge := ⟨"Road",
    [⟨"Toll", .ofKind (.scalar .boolean), some TaggedEdge.tag,
      some fun toll edge => { edge with tag := toll }, .marked,
      some ⟨.ofKind (.scalar .boolean), false⟩⟩]⟩
  graph := .none Unit "Lengths"

/-- A vertex is the length of its id. -/
def factories : Factories Nat (TaggedEdge Nat Bool) where
  vertex := String.length
  edge source target _ := ⟨source, target, true⟩

/-- Three ids, one of which recurs, stand for two vertices. -/
def document : Bytes :=
  ["<graphml>", "<graph>", "<node id='a'/>", "<node id='b'/>", "<node id='cc'/>", "<node id='a'/>",
    "<edge id='e' source='a' target='cc'>", "<data key='Toll'>", "true", "</data>", "</edge>",
    "<edge id='f' source='b' target='a'/>", "</graph>", "</graphml>"].flatMap bytesOf

/-- The undirected graph of one edge, without parallel edges. -/
def graph : AdjacencyGraph Nat (TaggedEdge Nat Bool) Unit :=
  (runOperations AdjacencyGraph.perform (.empty false false ())
    [.addVerticesAndEdge ⟨1, 2, false⟩]).2

theorem keeps_graphType : graphType.edge.Keeps SameEnds := by
  intro member inside marked set given value edge
  cases List.mem_singleton.mp inside
  cases given
  exact ⟨BEq.rfl, BEq.rfl⟩

theorem faithful_factories : factories.Faithful :=
  fun _ _ _ => ⟨BEq.rfl, BEq.rfl⟩

/-- Whatever comes of reading a document in which vertices are merged and an id recurs, no edge of
it is refused; and behind all six children the vertices that are known belong to the graph. -/
theorem staysAnchored_document :
    ∃ codecs elements, graphType.compile = .ok codecs ∧
      graphElement? (Markup.read document) = some (none, elements) ∧ elements.length = 6 ∧
        (∀ error, (read graphType factories document graph).1 = .error error →
          ¬IsRefusal error) ∧
        let filled := fill codecs none ⟨applyGraphDefaults codecs.graph graph, []⟩
          (elements.map (Prod.mk factories))
        StaysAnchored filled ∧ ∀ filling, filled = .ok filling → filling.Listed := by
  have compiled : ∃ codecs, graphType.compile = .ok codecs := ⟨_, rfl⟩
  have found : ∃ elements, graphElement? (Markup.read document) = some (none, elements) ∧
      elements.length = 6 := by
    have decided : (graphElement? (Markup.read document)).map
        (fun inside => (inside.1, inside.2.length)) = some (none, 6) := by
      decide +kernel
    obtain ⟨⟨namespace?, elements⟩, found, same⟩ := Option.map_eq_some_iff.mp decided
    obtain ⟨rfl, length⟩ := Prod.mk.inj same
    exact ⟨elements, found, length⟩
  obtain ⟨codecs, compiled⟩ := compiled
  obtain ⟨elements, found, length⟩ := found
  obtain ⟨unrefused, steps⟩ :=
    read_staysAnchored keeps_graphType faithful_factories document graph
  obtain ⟨stays, listed⟩ := (steps codecs compiled).2 none (elements.map (Prod.mk factories))
    (faithful_factories.throughout elements)
  exact ⟨codecs, elements, compiled, found, length, unrefused, stays,
    listed ⟨_, _, _, _, rfl⟩⟩

end Lengths

end GraphMarkup.Document
