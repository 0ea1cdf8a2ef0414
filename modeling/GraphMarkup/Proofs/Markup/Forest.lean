import GraphMarkup.Markup.Namespace
import GraphMarkup.Proofs.Result

/-!
# Documents as trees

The events of a document are those of a forest: elements with their content,
between them character data and the rest of the markup. An element without
content may have been written as one tag or as two; the tree does not say
which. A trace determines its forest, and the forest determines everything in
the trace but the positions.
-/

namespace GraphMarkup.Markup

open GraphMarkup.Text

/-- The text that a raw value stands for; nothing if it stands for none. -/
def textOf (raw : Bytes) : String :=
  match rawText raw with
  | .ok text => text
  | .error _ => ""

theorem textOf_eq_of_rawText_eq {raw : Bytes} {text : String} (read : rawText raw = .ok text) :
    textOf raw = text := by
  rw [textOf, read]

theorem shownName_eq_of_decodeUtf8_eq {bytes : Bytes} {text : String}
    (decoded : decodeUtf8 bytes = .ok text) : shownName bytes = text := by
  rw [shownName, decoded]

/-- The head of an element: its tag, and what its name resolves to. -/
structure Element where
  tag : Tag
  resolution : Resolution
deriving DecidableEq, Repr

namespace Element

/-- The local name of an element. -/
def name (element : Element) : String :=
  shownName (localName element.tag.name)

/-- The namespace of an element, if it is in one. -/
def namespace? (element : Element) : Option Bytes :=
  match element.resolution with
  | .bound uri => some uri
  | _ => none

/-- The attributes of an element, as they stand in its tag. -/
def attributes (element : Element) : List Attribute :=
  (element.tag.attributes true).found

/-- The value of the attribute with a key. -/
def attribute? (element : Element) (key : String) : Option String :=
  (element.attributes.find? (·.key = bytesOf key)).map fun found => textOf found.value

/-- The qualifier of an element is declared, its name and the names of its
attributes are text, its attributes are complete and no two of them have one
key, and the references in their values can be resolved. -/
structure WellFormed (element : Element) : Prop where
  declared : ∀ qualifier, element.resolution ≠ .unknown qualifier
  named : ∃ name, decodeUtf8 (localName element.tag.name) = .ok name
  complete : (element.tag.attributes true).error? = none
  keyed : ∀ found ∈ element.attributes, ∃ name, decodeUtf8 (localName found.key) = .ok name
  valued : ∀ found ∈ element.attributes, ∃ value, rawText found.value = .ok value

end Element

/-- A piece of a document. -/
inductive Node where
  | element (head : Element) (children : List Node)
  /-- Character data, or markup that is no tag. -/
  | leaf (event : Event)

/-- Whether an event is no tag. -/
def Event.isLeaf : Event → Bool
  | .opening _ => false
  | .empty _ => false
  | .closing _ => false
  | _ => true

/-- Character data is text, and the references in it can be resolved. -/
def Event.WellFormed : Event → Prop
  | .text raw => ∃ text, rawText raw = .ok text
  | .cdata content => ∃ text, decodeUtf8 content = .ok text
  | _ => True

mutual

/-- A well-formed piece of a document. -/
def Node.WellFormed : Node → Prop
  | .element head children => head.WellFormed ∧ Forest.WellFormed children
  | .leaf event => event.WellFormed

/-- A document or the content of an element all of whose pieces are
well-formed. -/
def Forest.WellFormed : List Node → Prop
  | [] => True
  | node :: nodes => node.WellFormed ∧ Forest.WellFormed nodes

end

/-- Whether a name has no prefix or one that is declared. -/
def Resolution.isKnown : Resolution → Bool
  | .unknown _ => false
  | _ => true

theorem Resolution.isKnown_iff {resolution : Resolution} :
    resolution.isKnown ↔ ∀ qualifier, resolution ≠ .unknown qualifier := by
  cases resolution <;> simp [isKnown]

instance (resolution : Resolution) : Decidable (∀ qualifier, resolution ≠ .unknown qualifier) :=
  decidable_of_iff _ Resolution.isKnown_iff

instance (element : Element) : Decidable element.WellFormed :=
  decidable_of_iff
    ((∀ qualifier, element.resolution ≠ .unknown qualifier) ∧
      (∃ name, decodeUtf8 (localName element.tag.name) = .ok name) ∧
      (element.tag.attributes true).error? = none ∧
      (∀ found ∈ element.attributes, ∃ name, decodeUtf8 (localName found.key) = .ok name) ∧
      ∀ found ∈ element.attributes, ∃ value, rawText found.value = .ok value)
    ⟨fun ⟨declared, named, complete, keyed, valued⟩ =>
      ⟨declared, named, complete, keyed, valued⟩,
    fun ⟨declared, named, complete, keyed, valued⟩ =>
      ⟨declared, named, complete, keyed, valued⟩⟩

instance : (event : Event) → Decidable event.WellFormed
  | .text raw => inferInstanceAs (Decidable (∃ text, rawText raw = .ok text))
  | .cdata content => inferInstanceAs (Decidable (∃ text, decodeUtf8 content = .ok text))
  | .opening _ | .empty _ | .closing _ | .comment _ | .instruction _ | .doctype _ => isTrue trivial

mutual

def Node.decidableWellFormed : (node : Node) → Decidable node.WellFormed
  | .element head children =>
      haveI := Forest.decidableWellFormed children
      inferInstanceAs (Decidable (head.WellFormed ∧ Forest.WellFormed children))
  | .leaf event => inferInstanceAs (Decidable event.WellFormed)

def Forest.decidableWellFormed : (nodes : List Node) → Decidable (Forest.WellFormed nodes)
  | [] => isTrue trivial
  | node :: nodes =>
      haveI := node.decidableWellFormed
      haveI := Forest.decidableWellFormed nodes
      inferInstanceAs (Decidable (node.WellFormed ∧ Forest.WellFormed nodes))

end

instance (nodes : List Node) : Decidable (Forest.WellFormed nodes) :=
  Forest.decidableWellFormed nodes

/-- The character data of an element, without that of the elements in it. -/
def characterData : List Node → String
  | [] => ""
  | .leaf (.text raw) :: nodes => textOf raw ++ characterData nodes
  | .leaf (.cdata content) :: nodes => shownName content ++ characterData nodes
  | _ :: nodes => characterData nodes

theorem characterData_leaf_cons (event : Event) (nodes : List Node) :
    characterData (.leaf event :: nodes) =
      characterData [.leaf event] ++ characterData nodes := by
  cases event <;> simp [characterData]

/-- A node and the elements around it, the innermost first. -/
structure Place where
  ancestors : List Element
  node : Node

mutual

/-- All places in a node, in the order of the document. -/
def Node.places (ancestors : List Element) : Node → List Place
  | .element head children =>
      ⟨ancestors, .element head children⟩ :: Forest.places (head :: ancestors) children
  | .leaf event => [⟨ancestors, .leaf event⟩]

/-- All places in a forest, in the order of the document. -/
def Forest.places (ancestors : List Element) : List Node → List Place
  | [] => []
  | node :: nodes => node.places ancestors ++ Forest.places ancestors nodes

end

/-- The elements of a forest that are in no other. -/
def Forest.roots (nodes : List Node) : List (Element × List Node) :=
  nodes.filterMap fun
    | .element head children => some (head, children)
    | .leaf _ => none

@[simp]
theorem Forest.roots_leaf_cons (event : Event) (nodes : List Node) :
    Forest.roots (.leaf event :: nodes) = Forest.roots nodes :=
  rfl

@[simp]
theorem Forest.roots_element_cons (head : Element) (children nodes : List Node) :
    Forest.roots (.element head children :: nodes) = (head, children) :: Forest.roots nodes :=
  rfl

/-- A trace begins with the events of a forest, and `last` stands behind them.
An element ends with the tag that closes its name, which resolves as at its
beginning. -/
inductive Reads : Trace Resolved → List Node → Trace Resolved → Prop where
  | nil (trace : Trace Resolved) : Reads trace [] trace
  | leaf {event : Event} {start : Nat} {rest last : Trace Resolved} {nodes : List Node}
      (isLeaf : event.isLeaf) (behind : Reads rest nodes last) :
      Reads (.item ⟨.unbound, event⟩ start rest) (.leaf event :: nodes) last
  | empty {head : Element} {start : Nat} {rest last : Trace Resolved} {nodes : List Node}
      (behind : Reads rest nodes last) :
      Reads (.item ⟨head.resolution, .empty head.tag⟩ start rest)
        (.element head [] :: nodes) last
  | element {head : Element} {start stop : Nat} {content rest last : Trace Resolved}
      {children nodes : List Node}
      (inside : Reads content children
        (.item ⟨head.resolution, .closing head.tag.name⟩ stop rest))
      (behind : Reads rest nodes last) :
      Reads (.item ⟨head.resolution, .opening head.tag⟩ start content)
        (.element head children :: nodes) last

/-- The rule for empty elements where the head is met as a tag and a resolution. -/
theorem Reads.of_empty {resolution : Resolution} {tag : Tag} {start : Nat}
    {rest last : Trace Resolved} {nodes : List Node} (behind : Reads rest nodes last) :
    Reads (.item ⟨resolution, .empty tag⟩ start rest) (.element ⟨tag, resolution⟩ [] :: nodes)
      last := by
  obtain ⟨head, rfl, rfl⟩ : ∃ head : Element, head.tag = tag ∧ head.resolution = resolution :=
    ⟨⟨tag, resolution⟩, rfl, rfl⟩
  exact .empty behind

/-- The rule for elements where the head is met as a tag and a resolution. -/
theorem Reads.of_opening {resolution : Resolution} {tag : Tag} {start stop : Nat}
    {content rest last : Trace Resolved} {children nodes : List Node}
    (inside : Reads content children (.item ⟨resolution, .closing tag.name⟩ stop rest))
    (behind : Reads rest nodes last) :
    Reads (.item ⟨resolution, .opening tag⟩ start content)
      (.element ⟨tag, resolution⟩ children :: nodes) last := by
  obtain ⟨head, rfl, rfl⟩ : ∃ head : Element, head.tag = tag ∧ head.resolution = resolution :=
    ⟨⟨tag, resolution⟩, rfl, rfl⟩
  exact .element inside behind

theorem Reads.append {trace middle last : Trace Resolved} {front back : List Node}
    (first : Reads trace front middle) (second : Reads middle back last) :
    Reads trace (front ++ back) last := by
  induction first with
  | nil => exact second
  | leaf isLeaf _ ih => exact .leaf isLeaf (ih second)
  | empty _ ih => exact .empty (ih second)
  | element inside _ _ ih => exact .element inside (ih second)

/-- The event of an element's tag, which may be an empty element's. -/
def tagEvent (tag : Tag) : (isEmpty : Bool) → Event
  | true => .empty tag
  | false => .opening tag

/-- What stands behind the tag of an element: nothing of it if it is empty, and
otherwise its children, of which `Content` holds, and its end tag. -/
inductive Inside (Content : Trace Resolved → List Node → Trace Resolved → Prop)
    (head : Element) : Bool → Trace Resolved → List Node → Trace Resolved → Prop where
  | empty (rest : Trace Resolved) : Inside Content head true rest [] rest
  | content {content rest : Trace Resolved} {children : List Node} {stop : Nat}
      (holds : Content content children
        (.item ⟨head.resolution, .closing head.tag.name⟩ stop rest)) :
      Inside Content head false content children rest

theorem Inside.imp {First Second : Trace Resolved → List Node → Trace Resolved → Prop}
    {head : Element} {isEmpty : Bool} {content rest : Trace Resolved} {children : List Node}
    (inside : Inside First head isEmpty content children rest)
    (implies : ∀ {trace nodes last}, First trace nodes last → Second trace nodes last) :
    Inside Second head isEmpty content children rest := by
  cases inside with
  | empty => exact .empty _
  | content holds => exact .content (implies holds)

/-- Induction over the events of a forest that treats elements alike, in
whichever way they are written. -/
theorem reads_induction {motive : Trace Resolved → List Node → Trace Resolved → Prop}
    (nil : ∀ trace, motive trace [] trace)
    (leaf : ∀ {event start rest last nodes}, event.isLeaf → motive rest nodes last →
      motive (.item ⟨.unbound, event⟩ start rest) (.leaf event :: nodes) last)
    (element : ∀ {head isEmpty start content rest last children nodes},
      Inside (fun trace nodes last => Reads trace nodes last ∧ motive trace nodes last)
        head isEmpty content children rest →
      Reads rest nodes last → motive rest nodes last →
      motive (.item ⟨head.resolution, tagEvent head.tag isEmpty⟩ start content)
        (.element head children :: nodes) last)
    {trace last : Trace Resolved} {nodes : List Node} (reads : Reads trace nodes last) :
    motive trace nodes last := by
  induction reads with
  | nil trace => exact nil trace
  | leaf isLeaf _ ih => exact leaf isLeaf ih
  | empty behind ih => exact element (.empty _) behind ih
  | element inside behind insideIh behindIh =>
    exact element (.content ⟨inside, insideIh⟩) behind behindIh

/-- What stands behind an item of a trace, if it is at the beginning. -/
def Trace.behind? (resolved : Resolved) : Trace Resolved → Option (Trace Resolved)
  | .item first _ rest => if first = resolved then some rest else none
  | _ => none

theorem Trace.behind?_eq_some_iff {resolved : Resolved} {trace rest : Trace Resolved} :
    trace.behind? resolved = some rest ↔ ∃ start, trace = .item resolved start rest := by
  cases trace with
  | ended => simp [behind?]
  | failed error start stop => simp [behind?]
  | item first start behind => simp [behind?]

mutual

/-- What stands behind the events of a node, if a trace begins with them. -/
def Node.behind? : Node → Trace Resolved → Option (Trace Resolved)
  | .leaf event, trace => if event.isLeaf then trace.behind? ⟨.unbound, event⟩ else none
  | .element head children, trace =>
      match trace.behind? ⟨head.resolution, .opening head.tag⟩ with
      | some content =>
          (Forest.behind? children content).bind
            (Trace.behind? ⟨head.resolution, .closing head.tag.name⟩)
      | none =>
          if children.isEmpty then trace.behind? ⟨head.resolution, .empty head.tag⟩ else none

/-- What stands behind the events of a forest, if a trace begins with them. -/
def Forest.behind? : List Node → Trace Resolved → Option (Trace Resolved)
  | [], trace => some trace
  | node :: nodes, trace => (node.behind? trace).bind (Forest.behind? nodes)

end

theorem Reads.behind?_eq {trace last : Trace Resolved} {nodes : List Node}
    (reads : Reads trace nodes last) : Forest.behind? nodes trace = some last := by
  induction reads with
  | nil => rfl
  | leaf isLeaf _ ih => simp [Forest.behind?, Node.behind?, Trace.behind?, isLeaf, ih]
  | empty _ ih => simp [Forest.behind?, Node.behind?, Trace.behind?, ih]
  | element _ _ insideIh behindIh =>
    simp [Forest.behind?, Node.behind?, Trace.behind?, insideIh, behindIh]

mutual

theorem Node.reads_of_behind? : {node : Node} → {trace last : Trace Resolved} →
    node.behind? trace = some last → Reads trace [node] last
  | .leaf event, trace, last, found => by
    rw [Node.behind?] at found
    split at found
    · rcases Trace.behind?_eq_some_iff.mp found with ⟨start, rfl⟩
      exact .leaf ‹_› (.nil _)
    · cases found
  | .element head children, trace, last, found => by
    rw [Node.behind?] at found
    split at found
    · rcases Trace.behind?_eq_some_iff.mp ‹_› with ⟨start, rfl⟩
      rcases Option.bind_eq_some_iff.mp found with ⟨closing, inside, closed⟩
      rcases Trace.behind?_eq_some_iff.mp closed with ⟨stop, rfl⟩
      exact .element (Forest.reads_of_behind? inside) (.nil _)
    · split at found
      · rcases Trace.behind?_eq_some_iff.mp found with ⟨start, rfl⟩
        rcases List.isEmpty_iff.mp ‹_› with rfl
        exact .empty (.nil _)
      · cases found

theorem Forest.reads_of_behind? : {nodes : List Node} → {trace last : Trace Resolved} →
    Forest.behind? nodes trace = some last → Reads trace nodes last
  | [], _, _, found => by
    cases found
    exact .nil _
  | node :: nodes, _, _, found => by
    rcases Option.bind_eq_some_iff.mp found with ⟨middle, first, second⟩
    exact (Node.reads_of_behind? first).append (Forest.reads_of_behind? second)

end

theorem reads_iff_behind?_eq {trace last : Trace Resolved} {nodes : List Node} :
    Reads trace nodes last ↔ Forest.behind? nodes trace = some last :=
  ⟨Reads.behind?_eq, Forest.reads_of_behind?⟩

instance (trace last : Trace Resolved) (nodes : List Node) : Decidable (Reads trace nodes last) :=
  decidable_of_iff _ reads_iff_behind?_eq.symm

/-- The document that consists of the events of a forest and of nothing else. -/
def Describes (document : Bytes) (nodes : List Node) : Prop :=
  Reads (read document) nodes .ended

instance (document : Bytes) (nodes : List Node) : Decidable (Describes document nodes) :=
  inferInstanceAs (Decidable (Reads _ _ _))

end GraphMarkup.Markup
