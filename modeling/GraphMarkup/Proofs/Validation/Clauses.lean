import GraphMarkup.Proofs.Validation.Decision
import Mathlib.Data.List.Nodup
import Mathlib.Data.List.Sigma

/-!
# The clauses of validity

That the places of a document are admissible is the same as the clauses of
validity: one root, every place valid on its own, and the values of each key
distinct. So a document passes validation exactly if it is valid.
-/

namespace GraphMarkup.Markup

mutual

theorem Node.suffix_of_mem_places : {node : Node} → {ancestors : List Element} →
    {place : Place} → place ∈ node.places ancestors → ancestors <:+ place.ancestors
  | .element head children, ancestors, place, member => by
    rcases List.mem_cons.mp member with rfl | inner
    · exact List.suffix_rfl
    · exact (List.suffix_cons head ancestors).trans (Forest.suffix_of_mem_places inner)
  | .leaf event, ancestors, place, member => by
    obtain rfl := List.mem_singleton.mp member
    exact List.suffix_rfl

/-- What stands in some elements still stands in them if it also stands in others. -/
theorem Forest.suffix_of_mem_places : {nodes : List Node} → {ancestors : List Element} →
    {place : Place} → place ∈ Forest.places ancestors nodes → ancestors <:+ place.ancestors
  | [], _, _, member => by cases member
  | node :: nodes, ancestors, place, member => by
    rcases List.mem_append.mp member with first | behind
    · exact Node.suffix_of_mem_places first
    · exact Forest.suffix_of_mem_places behind

end

end GraphMarkup.Markup

namespace GraphMarkup.Validation

open GraphMarkup.Document
open GraphMarkup.Markup
open GraphMarkup.Schema
open GraphMarkup.Text

/-- The places of roots are those of the elements that are in no other. -/
theorem filter_isRoot_places (nodes : List Node) :
    (Forest.places [] nodes).filter isRoot =
      (Forest.roots nodes).map fun root => ⟨[], .element root.1 root.2⟩ := by
  induction nodes with
  | nil => rfl
  | cons node nodes ih =>
    rw [Forest.places, List.filter_append, ih]
    cases node with
    | leaf event => rfl
    | element head children =>
      have inner : (Forest.places [head] children).filter isRoot = [] := by
        rw [List.filter_eq_nil_iff]
        intro place member root
        have around := Forest.suffix_of_mem_places member
        rw [isRoot] at root
        split at root
        · rw [List.isEmpty_iff.mp root, List.suffix_nil] at around
          cases around
        · cases root
      rw [Node.places, List.filter_cons_of_pos rfl, inner]
      rfl

section

variable {schema : Schema}

/-! ## Keys -/

theorem mem_identityValues_iff {element : Element} {index : Nat} {value : String} :
    (index, value) ∈ identityValues schema element ↔
      ∃ key, schema.keys[index]? = some key ∧
        valueAt? key.element key.attributeName element = some value := by
  rw [identityValues, valuesOfKeys, List.mem_filterMap]
  constructor
  · rintro ⟨⟨key, position⟩, member, found⟩
    obtain ⟨_, has, same⟩ := Option.map_eq_some_iff.mp found
    cases same
    exact ⟨key, List.mem_zipIdx_iff_getElem?.mp member, has⟩
  · rintro ⟨key, found, has⟩
    exact ⟨(key, index), List.mem_zipIdx_iff_getElem?.mpr found, Option.map_eq_some_iff.mpr
      ⟨value, has, rfl⟩⟩

/-- An element has at most one value for a key. -/
theorem nodup_identityValues (element : Element) : (identityValues schema element).Nodup := by
  have positions : schema.keys.zipIdx.Pairwise fun first second => first.2 ≠ second.2 :=
    List.pairwise_map.mp (List.nodup_zipIdx_map_snd schema.keys)
  rw [identityValues, valuesOfKeys, List.Nodup, List.pairwise_filterMap]
  refine positions.imp fun different _ first _ second same => ?_
  obtain ⟨_, _, rfl⟩ := Option.map_eq_some_iff.mp first
  obtain ⟨_, _, rfl⟩ := Option.map_eq_some_iff.mp second
  exact different (congrArg Prod.fst same)

/-- Key values are distinct if the values of every single key are. -/
theorem nodup_flatMap_identityValues_iff {elements : List Element} :
    (elements.flatMap (identityValues schema)).Nodup ↔
      ∀ key ∈ schema.keys, (valuesAt key.element key.attributeName elements).Nodup := by
  rw [List.nodup_flatMap, and_iff_right fun element _ => nodup_identityValues element]
  constructor
  · intro disjoint key member
    obtain ⟨index, found⟩ := List.mem_iff_getElem?.mp member
    rw [valuesAt, List.Nodup, List.pairwise_filterMap]
    refine disjoint.imp fun apart value first _ second same => ?_
    subst same
    exact apart (mem_identityValues_iff.mpr ⟨key, found, first⟩)
      (mem_identityValues_iff.mpr ⟨key, found, second⟩)
  · intro distinct
    rw [List.pairwise_iff_getElem]
    rintro i j iBound jBound less ⟨index, value⟩ first second
    obtain ⟨key, found, has⟩ := mem_identityValues_iff.mp first
    obtain ⟨key', found', has'⟩ := mem_identityValues_iff.mp second
    rw [found] at found'
    cases found'
    have apart := distinct key (List.mem_of_getElem? found)
    rw [valuesAt, List.Nodup, List.pairwise_filterMap, List.pairwise_iff_getElem] at apart
    exact apart i j iBound jBound less value has value has' rfl

/-! ## References -/

theorem mem_flatMap_identityValues_iff {elements : List Element} {key : IdentityKey}
    {index : Nat} (found : schema.keys[index]? = some key) {value : String} :
    (index, value) ∈ elements.flatMap (identityValues schema) ↔
      value ∈ valuesAt key.element key.attributeName elements := by
  rw [List.mem_flatMap, valuesAt, List.mem_filterMap]
  refine exists_congr fun element => and_congr_right fun _ => ?_
  rw [mem_identityValues_iff, found]
  constructor
  · rintro ⟨_, ⟨⟩, has⟩
    exact has
  · intro has
    exact ⟨key, rfl, has⟩

theorem mem_flatMap_referencesMade_iff {elements : List Element}
    {reference : IdentityReference} {value : String} :
    (reference, value) ∈ elements.flatMap (referencesMade schema) ↔
      reference ∈ schema.references ∧
        value ∈ valuesAt reference.element reference.attributeName elements := by
  rw [List.mem_flatMap, valuesAt, List.mem_filterMap]
  constructor
  · rintro ⟨element, member, made⟩
    obtain ⟨_, declared, found⟩ := List.mem_filterMap.mp made
    obtain ⟨_, has, same⟩ := Option.map_eq_some_iff.mp found
    cases same
    exact ⟨declared, element, member, has⟩
  · rintro ⟨declared, element, member, has⟩
    exact ⟨element, member, List.mem_filterMap.mpr
      ⟨reference, declared, Option.map_eq_some_iff.mpr ⟨value, has, rfl⟩⟩⟩

/-- The key that a reference is for, looked up with its position. -/
theorem map_fst_find?_zipIdx (name : String) :
    (schema.keys.zipIdx.find? (·.1.name = name)).map Prod.fst =
      schema.keys.find? (·.name = name) := by
  have keys := List.zipIdx_map_fst 0 schema.keys
  conv_rhs => rw [← keys, List.find?_map]
  rfl

/-- References are to known values if those to every single key are. -/
theorem forall_referencesMade_iff {elements : List Element} :
    (∀ made ∈ elements.flatMap (referencesMade schema),
      ∀ entry ∈ schema.keys.zipIdx.find? (·.1.name = made.1.refer),
        (entry.2, made.2) ∈ elements.flatMap (identityValues schema)) ↔
      ∀ reference ∈ schema.references, ∀ key ∈ schema.keys.find? (·.name = reference.refer),
        ∀ value ∈ valuesAt reference.element reference.attributeName elements,
          value ∈ valuesAt key.element key.attributeName elements := by
  constructor
  · intro known reference declared key found value made
    rw [← map_fst_find?_zipIdx] at found
    obtain ⟨⟨_, index⟩, indexed, rfl⟩ := Option.map_eq_some_iff.mp found
    have position := List.mem_zipIdx_iff_getElem?.mp (List.mem_of_find?_eq_some indexed)
    rw [← mem_flatMap_identityValues_iff position]
    exact known (reference, value)
      (mem_flatMap_referencesMade_iff.mpr ⟨declared, made⟩) _ indexed
  · rintro known ⟨reference, value⟩ member ⟨key, index⟩ indexed
    have position := List.mem_zipIdx_iff_getElem?.mp (List.mem_of_find?_eq_some indexed)
    obtain ⟨declared, made⟩ := mem_flatMap_referencesMade_iff.mp member
    rw [mem_flatMap_identityValues_iff position]
    refine known reference declared key ?_ value made
    rw [← map_fst_find?_zipIdx]
    exact Option.map_eq_some_iff.mpr ⟨_, indexed, rfl⟩

/-! ## All clauses -/

theorem mem_checkedElements_iff {places : List Place} {element : Element} :
    element ∈ checkedElements schema places ↔
      ∃ ancestors children, ⟨ancestors, .element element children⟩ ∈ places ∧
        IsChecked schema ancestors := by
  rw [checkedElements, List.mem_filterMap]
  constructor
  · rintro ⟨⟨ancestors, node⟩, member, found⟩
    cases node with
    | leaf event => cases found
    | element head children =>
      rw [checkedElement?_element] at found
      split at found
      · cases found
        exact ⟨ancestors, children, member, ‹_›⟩
      · cases found
  · rintro ⟨ancestors, children, member, checked⟩
    refine ⟨_, member, ?_⟩
    rw [checkedElement?_element, if_pos checked]

/-- The place of an element in no other is that of a root. -/
theorem mem_roots_of_mem_places {nodes children : List Node} {head : Element}
    (member : ⟨[], .element head children⟩ ∈ Forest.places [] nodes) :
    (head, children) ∈ Forest.roots nodes := by
  have root : ⟨[], .element head children⟩ ∈ (Forest.places [] nodes).filter isRoot :=
    List.mem_filter.mpr ⟨member, rfl⟩
  rw [filter_isRoot_places] at root
  obtain ⟨_, found, ⟨⟩⟩ := List.mem_map.mp root
  exact found

theorem mem_places_of_mem_roots {nodes children : List Node} {head : Element}
    (member : (head, children) ∈ Forest.roots nodes) :
    ⟨[], .element head children⟩ ∈ Forest.places [] nodes := by
  have root : ⟨[], .element head children⟩ ∈ (Forest.places [] nodes).filter isRoot := by
    rw [filter_isRoot_places]
    exact List.mem_map.mpr ⟨_, member, rfl⟩
  exact (List.mem_filter.mp root).1

variable {resolver : Resolver} {settings : Settings}

/-- The clauses on single places make every place of a valid document valid. -/
theorem Valid.placeValid {nodes : List Node} (valid : Valid resolver settings schema nodes)
    {place : Place} (member : place ∈ Forest.places [] nodes) :
    PlaceValid resolver settings schema place := by
  rcases place with ⟨ancestors, node⟩
  cases node with
  | leaf event =>
    refine ⟨valid.text ancestors event member, ?_⟩
    rintro content rfl
    exact valid.doctype ancestors content member
  | element head children =>
    refine ⟨valid.nested ancestors head children member, fun checked => ⟨?_, ?_, ?_⟩⟩
    · rintro rfl
      obtain ⟨root, content, only, named, _⟩ := valid.root
      have first := mem_roots_of_mem_places member
      rw [only, List.mem_singleton] at first
      cases first
      exact named
    · exact valid.placed ancestors head children member checked
    · exact valid.attributed head
        (mem_checkedElements_iff.mpr ⟨ancestors, children, member, checked⟩)

theorem any_isRoot_iff {nodes : List Node} :
    (Forest.places [] nodes).any isRoot ↔ Forest.roots nodes ≠ [] := by
  have roots := filter_isRoot_places nodes
  rw [← Bool.not_eq_false, ne_eq, not_iff_not, List.any_eq_false, ← List.map_eq_nil_iff, ← roots,
    List.filter_eq_nil_iff]

/-- The places of a valid document are admissible. -/
theorem Valid.admissible {nodes : List Node} (valid : Valid resolver settings schema nodes) :
    Admissible resolver settings schema (Forest.places [] nodes) := by
  obtain ⟨root, children, only, _⟩ := valid.root
  constructor
  · intro place member
    exact valid.placeValid member
  · rw [filter_isRoot_places, only]
    exact Nat.le_refl 1
  · rw [identityValuesOf, nodup_flatMap_identityValues_iff]
    exact valid.unique

/-- The clauses of validity hold of a document with admissible places and a root, if its
references are to known values. -/
theorem Admissible.valid {nodes : List Node}
    (admissible : Admissible resolver settings schema (Forest.places [] nodes))
    (rooted : Forest.roots nodes ≠ [])
    (resolved : ∀ made ∈ referencesMadeBy schema (Forest.places [] nodes),
      ∀ entry ∈ schema.keys.zipIdx.find? (·.1.name = made.1.refer),
        (entry.2, made.2) ∈ identityValuesOf schema (Forest.places [] nodes)) :
    Valid resolver settings schema nodes := by
  have placed {ancestors : List Element} {head : Element} {children : List Node}
      (member : ⟨ancestors, .element head children⟩ ∈ Forest.places [] nodes) :=
    admissible.each ⟨ancestors, .element head children⟩ member
  have found {ancestors : List Element} {event : Event}
      (member : ⟨ancestors, .leaf event⟩ ∈ Forest.places [] nodes) :
      LeafValid resolver settings schema ancestors event :=
    admissible.each ⟨ancestors, .leaf event⟩ member
  constructor
  case root =>
    have single := admissible.single
    rw [filter_isRoot_places, List.length_map] at single
    cases roots : Forest.roots nodes with
    | nil => exact absurd roots rooted
    | cons first others =>
      rw [roots, List.length_cons] at single
      have none := List.length_eq_zero_iff.mp (Nat.le_zero.mp (Nat.le_of_succ_le_succ single))
      rw [none] at roots ⊢
      rcases first with ⟨root, children⟩
      have member : (root, children) ∈ Forest.roots nodes := by
        rw [roots]
        exact List.mem_singleton_self _
      obtain ⟨named, belongs, _⟩ := (placed (mem_places_of_mem_roots member)).2 isChecked_nil
      exact ⟨root, children, rfl, named rfl, belongs.inTarget⟩
  case nested =>
    intro ancestors head children member
    exact (placed member).1
  case placed =>
    intro ancestors head children member checked
    exact ((placed member).2 checked).2.1
  case attributed =>
    intro element member
    obtain ⟨ancestors, children, member, checked⟩ := mem_checkedElements_iff.mp member
    exact ((placed member).2 checked).2.2
  case text =>
    intro ancestors event member
    exact (found member).text
  case doctype =>
    intro ancestors content member
    exact (found member).doctype content rfl
  case unique =>
    rw [← nodup_flatMap_identityValues_iff]
    exact admissible.unique
  case resolved =>
    rw [← forall_referencesMade_iff]
    exact resolved

/-- A document is valid exactly if its places are admissible, one of them is that of a
root, and the references are to known values. -/
theorem valid_iff_admissible {nodes : List Node} :
    Valid resolver settings schema nodes ↔
      Admissible resolver settings schema (Forest.places [] nodes) ∧
        (Forest.places [] nodes).any isRoot ∧
          ∀ made ∈ referencesMadeBy schema (Forest.places [] nodes),
            ∀ entry ∈ schema.keys.zipIdx.find? (·.1.name = made.1.refer),
              (entry.2, made.2) ∈ identityValuesOf schema (Forest.places [] nodes) := by
  rw [any_isRoot_iff]
  constructor
  · intro valid
    refine ⟨valid.admissible, ?_, forall_referencesMade_iff.mpr valid.resolved⟩
    obtain ⟨root, children, only, _⟩ := valid.root
    rw [only]
    exact List.cons_ne_nil _ _
  · rintro ⟨admissible, rooted, resolved⟩
    exact admissible.valid rooted resolved

/-- The events of a well-formed forest pass exactly if it is valid. -/
theorem accepts_iff_valid {trace : Trace Resolved} {nodes : List Node}
    (reads : Reads trace nodes .ended) (wellFormed : Forest.WellFormed nodes) :
    Accepts resolver settings schema trace ↔ Valid resolver settings schema nodes := by
  rw [accepts_iff_admissible reads wellFormed, valid_iff_admissible]

/-- Validation passes a well-formed document exactly if it is valid. -/
theorem validate_eq_ok_iff_valid {resolver : Resolver} {settings : Settings}
    {document : Bytes} {nodes : List Node} (describes : Describes document nodes)
    (wellFormed : Forest.WellFormed nodes) :
    validate resolver settings schema document = .ok () ↔
      Valid resolver settings schema nodes := by
  rw [validate_eq_ok_iff_accepts, accepts_iff_valid describes wellFormed]

end

/-- A schema with a key, references to it, and an element with arbitrary content. -/
def townSchema : Schema where
  targetNamespace? := some "u"
  elements :=
    [("graphml", { children := ["node", "edge", "note"] }), ("node", { required := ["id"] }),
      ("edge", { required := ["source"] }), ("note", { anyChildren := true })]
  keys := [⟨"towns", "node", "id"⟩]
  references := [⟨"towns", "edge", "source"⟩]

/-- A document that refers to a town further on, and has a note with a foreign element. -/
def townDocument : Bytes :=
  bytesOf ("<graphml xmlns='u'><edge source='1'/><note><v:any xmlns:v='v'>text</v:any></note>" ++
    "<node id='1'/></graphml>")

/-- The tree of the document. -/
def townNodes : List Node :=
  let element (content : String) : Element := ⟨⟨bytesOf content⟩, .bound (bytesOf "u")⟩
  [.element (element "graphml xmlns='u'")
    [.element (element "edge source='1'") [],
      .element (element "note")
        [.element ⟨⟨bytesOf "v:any xmlns:v='v'"⟩, .bound (bytesOf "v")⟩
          [.leaf (.text (bytesOf "text"))]],
      .element (element "node id='1'") []]]

/-- The document with the note passes validation, so it is valid. -/
theorem valid_townNodes :
    Describes townDocument townNodes ∧ Forest.WellFormed townNodes ∧
      validate .nothing {} townSchema townDocument = .ok () ∧
        Valid .nothing {} townSchema townNodes := by
  have describes : Describes townDocument townNodes := by
    decide +kernel
  have wellFormed : Forest.WellFormed townNodes := by
    decide +kernel
  have passes : ∃ value, validate .nothing {} townSchema townDocument = .ok value := by
    decide +kernel
  obtain ⟨_, passes⟩ := passes
  exact ⟨describes, wellFormed, passes,
    (validate_eq_ok_iff_valid describes wellFormed).mp passes⟩

end GraphMarkup.Validation
