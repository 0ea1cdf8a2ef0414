import GraphMarkup.Proofs.Markup.Outline
import GraphMarkup.Text.Blank

/-!
# What a document says

The forest of a document still tells how its tags and texts are spelled. What the
document says is a tree of names, values and texts, in which references are resolved
and blank text is dropped where only elements are expected. A trace determines its
forest, and what an outline says does not depend on how it is indented.
-/

namespace GraphMarkup.Markup

open GraphMarkup.Text

/-! ## Traces determine forests -/

/-- A trace goes on with an end tag or with nothing that can be read. -/
def Stops : Trace Resolved → Prop
  | .item resolved _ _ => ∃ name, resolved.event = .closing name
  | .ended => True
  | .failed _ _ _ => True

/-- What begins a forest is not the end of an element. -/
theorem Reads.eq_nil_of_stops {trace last : Trace Resolved} {nodes : List Node}
    (reads : Reads trace nodes last) (stops : Stops trace) : nodes = [] ∧ last = trace := by
  cases reads with
  | nil => exact ⟨rfl, rfl⟩
  | leaf isLeaf _ =>
    obtain ⟨name, rfl⟩ := stops
    cases isLeaf
  | empty =>
    obtain ⟨name, closing⟩ := stops
    cases closing
  | element =>
    obtain ⟨name, closing⟩ := stops
    cases closing

/-- Up to where it stops a trace has the events of only one forest. -/
theorem Reads.unique {trace last last' : Trace Resolved} {nodes nodes' : List Node}
    (reads : Reads trace nodes last) (stops : Stops last) (reads' : Reads trace nodes' last')
    (stops' : Stops last') : nodes' = nodes ∧ last' = last := by
  induction reads generalizing nodes' last' with
  | nil trace => exact reads'.eq_nil_of_stops stops
  | @leaf event start rest last nodes isLeaf behind ih =>
    generalize item : Trace.item ⟨.unbound, event⟩ start rest = trace at reads'
    cases reads' with
    | nil =>
      subst item
      obtain ⟨name, rfl⟩ := stops'
      cases isLeaf
    | leaf _ behind' =>
      cases item
      obtain ⟨rfl, rfl⟩ := ih stops behind' stops'
      exact ⟨rfl, rfl⟩
    | @empty other =>
      rcases other with ⟨tag, resolution⟩
      cases item
      cases isLeaf
    | @element other =>
      rcases other with ⟨tag, resolution⟩
      cases item
      cases isLeaf
  | @empty head start rest last nodes behind ih =>
    rcases head with ⟨tag, resolution⟩
    generalize item : Trace.item ⟨resolution, .empty tag⟩ start rest = trace at reads'
    cases reads' with
    | nil =>
      subst item
      obtain ⟨name, closing⟩ := stops'
      cases closing
    | leaf isLeaf _ =>
      cases item
      cases isLeaf
    | empty behind' =>
      cases item
      obtain ⟨rfl, rfl⟩ := ih stops behind' stops'
      exact ⟨rfl, rfl⟩
    | element => cases item
  | @element head start stop content rest last children nodes inside behind insideIh behindIh =>
    rcases head with ⟨tag, resolution⟩
    generalize item : Trace.item ⟨resolution, .opening tag⟩ start content = trace at reads'
    cases reads' with
    | nil =>
      subst item
      obtain ⟨name, closing⟩ := stops'
      cases closing
    | leaf isLeaf _ =>
      cases item
      cases isLeaf
    | empty => cases item
    | element inside' behind' =>
      cases item
      obtain ⟨rfl, closing⟩ := insideIh ⟨_, rfl⟩ inside' ⟨_, rfl⟩
      cases closing
      obtain ⟨rfl, rfl⟩ := behindIh stops behind' stops'
      exact ⟨rfl, rfl⟩

/-- A document has one forest. -/
theorem Describes.unique {document : Bytes} {nodes nodes' : List Node}
    (describes : Describes document nodes) (describes' : Describes document nodes') :
    nodes' = nodes :=
  (Reads.unique describes .intro describes' .intro).1

/-! ## Trees -/

/-- What a part of a document says. -/
inductive Tree where
  | element (name : String) (namespace? : Option String) (attributes : List (String × String))
      (children : List Tree)
  | text (content : String)
  /-- Markup that is no tag. -/
  | other (event : Event)

/-- Character data, which may be dropped if it is blank throughout. -/
def characterTrees (kept : Bool) (content : String) : List Tree :=
  if !kept && content.toList.all isBlank then [] else [.text content]

/-- An attribute as its name and its value. -/
def Attribute.entry (found : Attribute) : String × String :=
  (shownName found.key, textOf found.value)

section

variable (holdsText : String → Bool)

mutual

/-- What a node says. Blank text is kept in elements with some of the names. -/
def Node.trees (kept : Bool) : Node → List Tree
  | .element head children =>
      [.element head.name (head.namespace?.map textOf) (head.attributes.map Attribute.entry)
        (Forest.trees (holdsText head.name) children)]
  | .leaf (.text raw) => characterTrees kept (textOf raw)
  | .leaf (.cdata content) => characterTrees kept (shownName content)
  | .leaf event => [.other event]

/-- What a forest says. -/
def Forest.trees (kept : Bool) : List Node → List Tree
  | [] => []
  | node :: nodes => node.trees kept ++ Forest.trees kept nodes

end

end

/-- A text in an element that holds nothing else. -/
def textTrees (text : String) : List Tree :=
  if text = "" then [] else [.text text]

section

variable (uri : String)

mutual

/-- What an outline says. -/
def Outline.tree : Outline → Tree
  | .value heading text => .element heading.name (some uri) heading.attributes (textTrees text)
  | .branch heading children =>
      .element heading.name (some uri) heading.attributes (Outlines.trees children)

/-- What outlines say. -/
def Outlines.trees : List Outline → List Tree
  | [] => []
  | outline :: outlines => outline.tree :: Outlines.trees outlines

end

end

section

variable (holdsText : String → Bool)

mutual

/-- Texts stand in an outline where text is kept, and elements where it is not. -/
def Outline.Keeps : Outline → Prop
  | .value heading _ => holdsText heading.name
  | .branch heading children => holdsText heading.name = false ∧ Outlines.Keep children

/-- Texts stand in outlines where text is kept, and elements where it is not. -/
def Outlines.Keep : List Outline → Prop
  | [] => True
  | outline :: outlines => outline.Keeps ∧ Outlines.Keep outlines

end

omit holdsText in
theorem Outlines.trees_eq_map (uri : String) (outlines : List Outline) :
    Outlines.trees uri outlines = outlines.map (Outline.tree uri) := by
  induction outlines with
  | nil => rfl
  | cons outline outlines ih => rw [Outlines.trees, ih, List.map_cons]

theorem Outlines.keep_iff {outlines : List Outline} :
    Outlines.Keep holdsText outlines ↔ ∀ outline ∈ outlines, outline.Keeps holdsText := by
  induction outlines with
  | nil => simp [Outlines.Keep]
  | cons outline outlines ih => rw [Outlines.Keep, ih, List.forall_mem_cons]

theorem Outlines.keep_append {front back : List Outline} :
    Outlines.Keep holdsText (front ++ back) ↔
      Outlines.Keep holdsText front ∧ Outlines.Keep holdsText back := by
  rw [keep_iff, keep_iff, keep_iff, List.forall_mem_append]

/-! ## What outlines say -/

theorem Forest.trees_append (kept : Bool) (front back : List Node) :
    Forest.trees holdsText kept (front ++ back) =
      Forest.trees holdsText kept front ++ Forest.trees holdsText kept back := by
  induction front with
  | nil => rfl
  | cons node front ih => rw [List.cons_append, Forest.trees, ih, Forest.trees, List.append_assoc]

/-- Line breaks and indentation are blank. -/
theorem isBlank_of_mem_breakText {indent? : Option Nat} {depth : Nat} {char : Char}
    (member : char ∈ (breakText indent? depth).toList) : isBlank char := by
  cases indent? with
  | none => cases member
  | some width =>
    rw [breakText, String.toList_ofList, List.mem_cons] at member
    rcases member with rfl | space
    · rfl
    · cases List.eq_of_mem_replicate space
      rfl

/-- Line breaks are dropped. -/
theorem Forest.trees_breakNodes (indent? : Option Nat) (depth : Nat) :
    Forest.trees holdsText false (breakNodes indent? depth) = [] := by
  have blank : (breakText indent? depth).toList.all isBlank :=
    List.all_eq_true.mpr fun _ member => isBlank_of_mem_breakText member
  rw [breakNodes_eq, textNodes]
  split
  · rfl
  · rw [Forest.trees, Node.trees, textOf_eq_of_rawText_eq (rawText_encodeUtf8_escape _),
      characterTrees, blank]
    rfl

/-- The text of an element is kept. -/
theorem Forest.trees_textNodes (text : String) :
    Forest.trees holdsText true (textNodes (escape text)) = textTrees text := by
  rw [textNodes, textTrees]
  by_cases none : text = ""
  · rw [if_pos none, if_pos (escape_eq_empty_iff.mpr none)]
    rfl
  · rw [if_neg none, if_neg fun escaped => none (escape_eq_empty_iff.mp escaped), Forest.trees,
      Node.trees, textOf_eq_of_rawText_eq (rawText_encodeUtf8_escape text)]
    rfl

omit holdsText in
theorem textOf_encodeUtf8_escape (text : String) : textOf (encodeUtf8 (escape text)) = text :=
  textOf_eq_of_rawText_eq (rawText_encodeUtf8_escape text)

omit holdsText in
/-- The attributes of a written element are read as the names and values that were written. -/
theorem Writable.entries_writtenElement {name : String} {attributes : List (String × String)}
    (writable : Writable name attributes) (resolution : Resolution) :
    (writtenElement resolution name attributes).attributes.map Attribute.entry = attributes := by
  have same : ∀ entry ∈ attributes, (writtenAttribute entry).entry = entry := by
    intro entry member
    rw [writtenAttribute, Attribute.entry, textOf_encodeUtf8_escape,
      shownName_eq_of_decodeUtf8_eq (writable.keyed entry member).decodeUtf8_bytesOf]
  rw [writable.attributes_writtenElement, List.map_map]
  exact (List.map_congr_left same).trans (List.map_id attributes)

/-- A written element says what was written of it. -/
theorem Writable.trees_writtenElement {name : String} {attributes : List (String × String)}
    (writable : Writable name attributes) (uri : String) (kept : Bool) (children : List Node) :
    (Node.element (writtenElement (.bound (encodeUtf8 (escape uri))) name attributes)
        children).trees holdsText kept =
      [.element name (some uri) attributes (Forest.trees holdsText (holdsText name) children)] := by
  rw [Node.trees, writable.name_writtenElement, writable.entries_writtenElement, writtenElement,
    Element.namespace?, Option.map_some, textOf_encodeUtf8_escape]

variable {holdsText}

mutual

/-- Where an outline was written it is what the document says. -/
theorem Outline.trees_node (uri : String) (indent? : Option Nat) : (outline : Outline) →
    outline.Keeps holdsText → (depth : Nat) →
    (outline.node (.bound (encodeUtf8 (escape uri))) indent? depth).trees holdsText false =
      [outline.tree uri]
  | .value heading text, keeps, depth => by
    have written := heading.writable.trees_writtenElement holdsText uri false
      (textNodes (escape text))
    rw [keeps, Forest.trees_textNodes] at written
    exact written
  | .branch heading children, keeps, depth => by
    have written := heading.writable.trees_writtenElement holdsText uri false
      (Outlines.nodes (.bound (encodeUtf8 (escape uri))) indent? (depth + 1) children ++
        breakNodes indent? depth)
    rw [keeps.1, Forest.trees_append, Forest.trees_breakNodes, List.append_nil,
      Outlines.trees_nodes uri indent? children keeps.2 (depth + 1)] at written
    exact written

/-- Where outlines were written they are what the document says. -/
theorem Outlines.trees_nodes (uri : String) (indent? : Option Nat) : (outlines : List Outline) →
    Outlines.Keep holdsText outlines → (depth : Nat) →
    Forest.trees holdsText false
        (Outlines.nodes (.bound (encodeUtf8 (escape uri))) indent? depth outlines) =
      Outlines.trees uri outlines
  | [], _, _ => rfl
  | outline :: outlines, keep, depth => by
    rw [Outlines.nodes, Forest.trees_append, Forest.trees_breakNodes, List.nil_append,
      Forest.trees, outline.trees_node uri indent? keep.1 depth,
      Outlines.trees_nodes uri indent? outlines keep.2 depth, List.singleton_append,
      Outlines.trees]

end

/-- A document says its outline, behind the declaration if it has one. -/
theorem trees_documentNodes {name : String} (plain : IsPlain name)
    (notText : holdsText name = false) (uri : String) (declaration : Bool) (indent? : Option Nat)
    {children : List Outline} (keep : Outlines.Keep holdsText children) :
    Forest.trees holdsText false (documentNodes declaration indent? name uri children) =
      (if declaration then [.other (.instruction declarationContent)] else []) ++
        [.element name (some uri) [("xmlns", uri)] (Outlines.trees uri children)] := by
  have root := (writable_root plain uri).trees_writtenElement holdsText uri false
    (documentContent indent? uri children)
  rw [notText, documentContent, Forest.trees_append, Forest.trees_breakNodes, List.append_nil,
    Outlines.trees_nodes uri indent? children keep] at root
  have front : Forest.trees holdsText false
      (if declaration then .leaf (.instruction declarationContent) :: breakNodes indent? 0
        else []) = if declaration then [.other (.instruction declarationContent)] else [] := by
    cases declaration with
    | false => rfl
    | true =>
      rw [if_pos rfl, Forest.trees, Forest.trees_breakNodes]
      rfl
  rw [documentNodes, rootNodes, Forest.trees_append, front, Forest.trees, documentRoot,
    documentContent, root]
  rfl

end

end GraphMarkup.Markup
