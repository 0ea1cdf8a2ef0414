import GraphMarkup.Proofs.Markup.WrittenItems

/-!
# Outlines of documents

A written document is an outline: its elements hold other elements or a text. It
is read back as the tree of the outline. If lines are broken, there is blank text
in front of every element, and of the end tags of elements that hold others.
-/

namespace GraphMarkup.Markup

open GraphMarkup.Text

/-! ## Declared namespaces -/

/-- Among plain keys only one declares a namespace. -/
theorem declaredName?_bytesOf {key : String} (plain : IsPlain key) :
    declaredName? (bytesOf key) = if key = "xmlns" then some .default else none := by
  by_cases same : key = "xmlns"
  · subst same
    rfl
  rw [if_neg same, declaredName?]
  cases dropped : dropPrefix? (bytesOf "xmlns") (bytesOf key) with
  | none => rfl
  | some rest =>
    have bytes := dropPrefix?_eq_some_iff.mp dropped
    cases rest with
    | nil =>
      rw [List.append_nil] at bytes
      exact absurd (((by decide : IsPlain "xmlns").bytesOf_inj plain).mp bytes.symm).symm same
    | cons colon rest =>
      have member : colon ∈ bytesOf key := by
        rw [bytes]
        exact List.mem_append_right _ List.mem_cons_self
      have other := ne_of_isPlainByte (plain.isPlainByte_of_mem member)
        (by decide : isPlainByte (byteOf ':') = false)
      exact if_neg (by simpa using other)

/-- Plain names have the default namespace. -/
theorem resolve_bytesOf {name : String} (plain : IsPlain name) (scope : Scope) :
    scope.resolve (bytesOf name) = scope.resolve [] := by
  have whole : (bytesOf name).takeWhile (· != byteOf ':') = bytesOf name := by
    rw [List.takeWhile_eq_self_iff]
    intro byte member
    exact bne_iff_ne.mpr (ne_of_isPlainByte (plain.isPlainByte_of_mem member) rfl)
  have unqualified : qualifier? (bytesOf name) = none := by
    rw [qualifier?, whole]
    exact if_pos rfl
  rw [Scope.resolve, unqualified]
  rfl

/-- The bindings in a written tag are those of its attributes. -/
theorem enter_tagText {name : String} {attributes : List (String × String)}
    (writable : Writable name attributes) (scope : Scope) :
    scope.enter ⟨encodeUtf8 (tagText name attributes)⟩ =
      (attributes.map writtenAttribute).foldlM Scope.declare scope := by
  have complete := writable.attributes_tag
  rw [Scope.enter, Tag.attributes_false_of_complete (by rw [complete]), complete]

/-! ## Headings -/

/-- The tag of an element that can be written. It declares no namespace. -/
structure Heading where
  name : String
  attributes : List (String × String)
  writable : Writable name attributes
  undeclaring : ∀ entry ∈ attributes, entry.1 ≠ "xmlns"

namespace Heading

/-- A name and keys that are plain, differ, and declare no namespace. -/
def AllowsKeys (name : String) (keys : List String) : Prop :=
  IsPlain name ∧ (∀ key ∈ keys, IsPlain key ∧ key ≠ "xmlns") ∧ keys.Nodup

instance (name : String) (keys : List String) : Decidable (AllowsKeys name keys) :=
  inferInstanceAs (Decidable (_ ∧ _))

/-- A heading with such keys, whatever the values are. -/
def ofKeys (name : String) (attributes : List (String × String))
    (allowed : AllowsKeys name (attributes.map Prod.fst)) : Heading where
  name := name
  attributes := attributes
  writable := ⟨allowed.1, fun _ member => (allowed.2.1 _ (List.mem_map_of_mem member)).1,
    allowed.2.2⟩
  undeclaring _ member := (allowed.2.1 _ (List.mem_map_of_mem member)).2

/-- The tag as it is written. -/
def tag (heading : Heading) : Tag :=
  ⟨encodeUtf8 (tagText heading.name heading.attributes)⟩

/-- The head of the element that is read. -/
def element (resolution : Resolution) (heading : Heading) : Element :=
  ⟨heading.tag, resolution⟩

/-- The item that is written. -/
def opening (heading : Heading) : Item :=
  .opening heading.name heading.attributes

/-- The item that ends the element. -/
def closing (heading : Heading) : Item :=
  .closing heading.name

@[simp]
theorem name_element (heading : Heading) (resolution : Resolution) :
    (heading.element resolution).name = heading.name :=
  heading.writable.name_writtenElement

/-- An element that is read has the attributes of its heading. -/
theorem attribute?_element (heading : Heading) (resolution : Resolution) {key : String}
    (plain : IsPlain key) :
    (heading.element resolution).attribute? key = heading.attributes.lookup key :=
  heading.writable.attribute?_writtenElement plain

theorem enter_tag (heading : Heading) (scope : Scope) : scope.enter heading.tag = .ok scope := by
  rw [tag, enter_tagText heading.writable]
  have keyed := heading.writable.keyed
  have undeclaring := heading.undeclaring
  generalize heading.attributes = attributes at keyed undeclaring
  induction attributes with
  | nil => rfl
  | cons entry attributes ih =>
    have none := declaredName?_bytesOf (keyed entry List.mem_cons_self)
    rw [if_neg (undeclaring entry List.mem_cons_self)] at none
    have kept : scope.declare (writtenAttribute entry) = .ok scope := by
      rw [Scope.declare, writtenAttribute, none]
    rw [List.map_cons, List.foldlM_cons, kept]
    exact ih (fun other member => keyed other (List.mem_cons_of_mem _ member))
      (fun other member => undeclaring other (List.mem_cons_of_mem _ member))

end Heading

/-- An element with a plain name is read with its content. -/
theorem readsOff_plainElement {name : String} {attributes : List (String × String)}
    (writable : Writable name attributes) {scope inner : Scope}
    (enters : scope.enter ⟨encodeUtf8 (tagText name attributes)⟩ = .ok inner)
    {outer : List Scope} {opened : List Bytes} {content rest : Bytes} {children : List Node}
    (inside : ReadsOff inner (scope :: outer) (bytesOf name :: opened) content children
      (encodeUtf8 (Item.closing name).render ++ rest)) :
    ReadsOff scope outer opened (encodeUtf8 (Item.opening name attributes).render ++ content)
      [.element (writtenElement (inner.resolve []) name attributes) children] rest := by
  rw [← writable.named.encodeUtf8_eq] at inside
  have whole := readsOff_element writable.isTag enters inside
  rw [writable.named.encodeUtf8_eq, resolve_bytesOf writable.named] at whole
  exact whole

/-! ## Outlines -/

/-- What is written of an element: its heading, and the text or the elements in it. -/
inductive Outline where
  | value (heading : Heading) (text : String)
  | branch (heading : Heading) (children : List Outline)

/-- The text in front of an element at some depth. -/
def breakText (indent? : Option Nat) (depth : Nat) : String :=
  match indent? with
  | some width => String.ofList ('\n' :: List.replicate (depth * width) ' ')
  | none => ""

/-- The node of the text in front of an element, if there is any. -/
def breakNodes (indent? : Option Nat) (depth : Nat) : List Node :=
  textNodes (breakText indent? depth)

mutual

/-- The items of an outline. -/
def Outline.items : Outline → List Item
  | .value heading text => [heading.opening, .text text, heading.closing]
  | .branch heading children => heading.opening :: (Outlines.items children ++ [heading.closing])

/-- The items of a list of outlines. -/
def Outlines.items : List Outline → List Item
  | [] => []
  | outline :: outlines => outline.items ++ Outlines.items outlines

end

section

variable (resolution : Resolution) (indent? : Option Nat)

mutual

/-- The node that is read where an outline was written. -/
def Outline.node (depth : Nat) : Outline → Node
  | .value heading text => .element (heading.element resolution) (textNodes (escape text))
  | .branch heading children =>
      .element (heading.element resolution)
        (Outlines.nodes (depth + 1) children ++ breakNodes indent? depth)

/-- The nodes that are read where outlines were written. -/
def Outlines.nodes (depth : Nat) : List Outline → List Node
  | [] => []
  | outline :: outlines =>
      breakNodes indent? depth ++ outline.node depth :: Outlines.nodes depth outlines

end

end

/-! ## Texts -/

/-- The text in front of an element is no other when it is escaped. -/
theorem escape_breakText (indent? : Option Nat) (depth : Nat) :
    escape (breakText indent? depth) = breakText indent? depth := by
  cases indent? with
  | none => rfl
  | some width =>
    have kept : ∀ count, (List.replicate count ' ').flatMap escapeChar =
        List.replicate count ' ' := by
      intro count
      induction count with
      | zero => rfl
      | succ count ih =>
        rw [List.replicate_succ, List.flatMap_cons, ih]
        rfl
    rw [breakText, escape, String.toList_ofList, List.flatMap_cons, kept]
    rfl

theorem breakNodes_eq (indent? : Option Nat) (depth : Nat) :
    breakNodes indent? depth = textNodes (escape (breakText indent? depth)) := by
  rw [escape_breakText]
  rfl

/-- The character data where a text was written is the text. -/
theorem characterData_textNodes (text : String) :
    characterData (textNodes (escape text)) = text := by
  by_cases none : text = ""
  · subst none
    rfl
  · rw [textNodes, if_neg fun escaped => none (escape_eq_empty_iff.mp escaped), characterData,
      textOf_eq_of_rawText_eq (rawText_encodeUtf8_escape text)]
    exact String.append_empty

theorem wellFormed_textNodes (text : String) : Forest.WellFormed (textNodes (escape text)) := by
  rw [textNodes]
  split
  · trivial
  · exact ⟨⟨text, rawText_encodeUtf8_escape text⟩, trivial⟩

/-! ## Reading outlines -/

/-- Every item but character data begins with a bracket. -/
theorem beginsMarkup_render {item : Item} (tagged : item.isCharacterData = false)
    (rest : Bytes) : BeginsMarkup (encodeUtf8 item.render ++ rest) := by
  have front : ∃ behind, encodeUtf8 item.render = byteOf '<' :: behind := by
    cases item with
    | declaration => exact ⟨_, encodeUtf8_declaration⟩
    | opening name attributes => exact ⟨_, encodeUtf8_opening name attributes⟩
    | closing name => exact ⟨_, encodeUtf8_closing name⟩
    | empty name attributes => exact ⟨_, encodeUtf8_empty name attributes⟩
    | text content => cases tagged
    | escaped content => cases tagged
    | cdata content => cases tagged
    | comment content => exact ⟨_, encodeUtf8_comment content⟩
    | instruction content => exact ⟨_, encodeUtf8_instruction content⟩
  obtain ⟨behind, same⟩ := front
  rw [same]
  rintro byte ⟨⟩
  rfl

/-- The text in front of a tag holds no bracket. -/
theorem not_mem_breakText (indent? : Option Nat) (depth : Nat) :
    byteOf '<' ∉ encodeUtf8 (breakText indent? depth) := by
  intro member
  have char := mem_of_byteOf_mem_encodeUtf8 (by decide) member
  cases indent? with
  | none => cases char
  | some width =>
    rw [breakText, String.toList_ofList, List.mem_cons] at char
    rcases char with same | space
    · cases same
    · cases List.eq_of_mem_replicate space

theorem not_mem_escape (text : String) : byteOf '<' ∉ encodeUtf8 (escape text) :=
  not_mem_encodeUtf8_escape (by decide) text

section

variable {indent? : Option Nat} {scope : Scope}

/-- In front of a start tag there may be a line break. -/
theorem rendered_opening (name : String) (attributes : List (String × String)) (depth : Nat)
    (items : List Item) :
    rendered indent? ⟨depth, true⟩ (.opening name attributes :: items) =
      encodeUtf8 (breakText indent? depth) ++
        (encodeUtf8 (Item.opening name attributes).render ++
          rendered indent? ⟨depth + 1, true⟩ items) := by
  have same : (⟨depth, true⟩ : PrinterState).lineBreak indent? (.opening name attributes) =
      breakText indent? depth := by
    cases indent? with
    | none => rfl
    | some width => rfl
  rw [rendered_cons, same]
  rfl

/-- In front of an end tag there may be a line break. -/
theorem rendered_closing (name : String) (depth : Nat) (items : List Item) :
    rendered indent? ⟨depth + 1, true⟩ (.closing name :: items) =
      encodeUtf8 (breakText indent? depth) ++ (encodeUtf8 (Item.closing name).render ++
        rendered indent? ⟨depth, true⟩ items) := by
  have same : (⟨depth + 1, true⟩ : PrinterState).lineBreak indent? (.closing name) =
      breakText indent? depth := by
    cases indent? with
    | none => rfl
    | some width => rfl
  rw [rendered_cons, same]
  rfl

/-- Around a text there are no line breaks. -/
theorem rendered_text (name text : String) (depth : Nat) (items : List Item) :
    rendered indent? ⟨depth + 1, true⟩ (.text text :: .closing name :: items) =
      encodeUtf8 (escape text) ++ (encodeUtf8 (Item.closing name).render ++
        rendered indent? ⟨depth, true⟩ items) := by
  have before : (⟨depth + 1, true⟩ : PrinterState).lineBreak indent? (.text text) = "" := by
    cases indent? with
    | none => rfl
    | some width => rfl
  have behind : (⟨depth + 1, false⟩ : PrinterState).lineBreak indent? (.closing name) = "" := by
    cases indent? with
    | none => rfl
    | some width => rfl
  have state : (⟨depth + 1, true⟩ : PrinterState).after (.text text) = ⟨depth + 1, false⟩ := rfl
  have none : encodeUtf8 "" = [] := rfl
  rw [rendered_cons, before, state, rendered_cons, behind, none, List.nil_append,
    List.nil_append]
  rfl

theorem readsOff_break {rest : Bytes} (markup : BeginsMarkup rest) (depth : Nat)
    (outer : List Scope) (opened : List Bytes) :
    ReadsOff scope outer opened (encodeUtf8 (breakText indent? depth) ++ rest)
      (breakNodes indent? depth) rest :=
  readsOff_text (not_mem_breakText indent? depth) markup scope outer opened

/-- An element is read with its content and with the text in front of it. -/
theorem readsOff_heading (heading : Heading) {depth : Nat} {outer : List Scope}
    {opened : List Bytes} {content : List Item} {rest : Bytes} {children : List Node}
    (inside : ReadsOff scope (scope :: outer) (bytesOf heading.name :: opened)
      (rendered indent? ⟨depth + 1, true⟩ content) children
      (encodeUtf8 heading.closing.render ++ rest)) :
    ReadsOff scope outer opened (rendered indent? ⟨depth, true⟩ (heading.opening :: content))
      (breakNodes indent? depth ++ [.element (heading.element (scope.resolve [])) children])
      rest := by
  rw [Heading.opening, rendered_opening]
  apply ReadsOff.trans
  · exact readsOff_break (beginsMarkup_render rfl _) depth outer opened
  · exact readsOff_plainElement heading.writable (heading.enter_tag scope) inside

mutual

/-- An outline is read back. -/
theorem Outline.readsOff : (outline : Outline) → (depth : Nat) → (outer : List Scope) →
    (opened : List Bytes) → (items : List Item) →
    ReadsOff scope outer opened (rendered indent? ⟨depth, true⟩ (outline.items ++ items))
      (breakNodes indent? depth ++ [outline.node (scope.resolve []) indent? depth])
      (rendered indent? ⟨depth, true⟩ items)
  | .value heading text, depth, outer, opened, items => by
    rw [Outline.items, Outline.node, List.cons_append]
    apply readsOff_heading
    rw [List.cons_append, List.cons_append, List.nil_append, Heading.closing, rendered_text]
    exact readsOff_text (not_mem_escape text) (beginsMarkup_render rfl _) scope _ _
  | .branch heading children, depth, outer, opened, items => by
    rw [Outline.items, Outline.node, List.cons_append]
    apply readsOff_heading
    rw [List.append_assoc]
    apply (Outlines.readsOff children (depth + 1) _ _ _).trans
    rw [List.cons_append, List.nil_append, Heading.closing, rendered_closing]
    exact readsOff_break (beginsMarkup_render rfl _) depth _ _

/-- Outlines are read back. -/
theorem Outlines.readsOff : (outlines : List Outline) → (depth : Nat) → (outer : List Scope) →
    (opened : List Bytes) → (items : List Item) →
    ReadsOff scope outer opened (rendered indent? ⟨depth, true⟩ (Outlines.items outlines ++ items))
      (Outlines.nodes (scope.resolve []) indent? depth outlines)
      (rendered indent? ⟨depth, true⟩ items)
  | [], depth, outer, opened, items => .refl _
  | outline :: outlines, depth, outer, opened, items => by
    rw [Outlines.items, Outlines.nodes, List.append_assoc, List.append_cons]
    exact (outline.readsOff depth outer opened _).trans
      (Outlines.readsOff outlines depth outer opened items)

end

end

/-! ## Reading content -/

/-- Items are read back as nodes wherever they are written at some depth. -/
def ReadsBack (scope : Scope) (indent? : Option Nat) (depth : Nat) (content : List Item)
    (nodes : List Node) : Prop :=
  ∀ outer opened items,
    ReadsOff scope outer opened (rendered indent? ⟨depth, true⟩ (content ++ items)) nodes
      (rendered indent? ⟨depth, true⟩ items)

theorem Outlines.readsBack (scope : Scope) (indent? : Option Nat) (depth : Nat)
    (outlines : List Outline) :
    ReadsBack scope indent? depth (Outlines.items outlines)
      (Outlines.nodes (scope.resolve []) indent? depth outlines) :=
  Outlines.readsOff outlines depth

namespace ReadsBack

variable {scope : Scope} {indent? : Option Nat} {depth : Nat} {front back : List Item}
  {frontNodes backNodes : List Node}

theorem nil : ReadsBack scope indent? depth [] [] :=
  fun _ _ _ => .refl _

theorem append (first : ReadsBack scope indent? depth front frontNodes)
    (second : ReadsBack scope indent? depth back backNodes) :
    ReadsBack scope indent? depth (front ++ back) (frontNodes ++ backNodes) := by
  intro outer opened items
  rw [List.append_assoc]
  exact (first outer opened (back ++ items)).trans (second outer opened items)

/-- An element is read back with its content. -/
theorem branch (heading : Heading) (inside : ReadsBack scope indent? (depth + 1) front frontNodes) :
    ReadsBack scope indent? depth (heading.opening :: (front ++ [heading.closing]))
      (breakNodes indent? depth ++
        [.element (heading.element (scope.resolve []))
          (frontNodes ++ breakNodes indent? depth)]) := by
  intro outer opened items
  rw [List.cons_append, List.append_assoc]
  apply readsOff_heading
  apply (inside _ _ _).trans
  rw [List.singleton_append, Heading.closing, rendered_closing]
  exact readsOff_break (beginsMarkup_render rfl _) depth _ _

end ReadsBack

/-! ## Whole documents -/

/-- The items of a document whose root binds the default namespace. -/
def rootItems (declaration : Bool) (name uri : String) (content : List Item) : List Item :=
  (if declaration then [.declaration] else []) ++
    .opening name [("xmlns", uri)] :: (content ++ [.closing name])

/-- The items of such a document with the given outlines. -/
def documentItems (declaration : Bool) (name uri : String) (children : List Outline) :
    List Item :=
  rootItems declaration name uri (Outlines.items children)

/-- The root of such a document. -/
def documentRoot (name uri : String) : Element :=
  writtenElement (.bound (encodeUtf8 (escape uri))) name [("xmlns", uri)]

/-- The bindings inside the root. -/
def rootScope (uri : String) : Scope :=
  ⟨[], encodeUtf8 (escape uri)⟩ :: Scope.initial

/-- What stands in the root of a document with the given outlines. -/
def documentContent (indent? : Option Nat) (uri : String) (children : List Outline) :
    List Node :=
  Outlines.nodes (.bound (encodeUtf8 (escape uri))) indent? 1 children ++ breakNodes indent? 0

/-- The nodes of a document with the given content. -/
def rootNodes (declaration : Bool) (indent? : Option Nat) (name uri : String)
    (content : List Node) : List Node :=
  (if declaration then .leaf (.instruction declarationContent) :: breakNodes indent? 0 else []) ++
    [.element (documentRoot name uri) content]

/-- The nodes of a document with the given outlines. -/
def documentNodes (declaration : Bool) (indent? : Option Nat) (name uri : String)
    (children : List Outline) : List Node :=
  rootNodes declaration indent? name uri (documentContent indent? uri children)

theorem writable_root {name : String} (plain : IsPlain name) (uri : String) :
    Writable name [("xmlns", uri)] := by
  refine ⟨plain, ?_, List.pairwise_singleton _ _⟩
  intro entry member
  rw [List.mem_singleton.mp member]
  exact (by decide : IsPlain "xmlns")

theorem name_documentRoot {name : String} (plain : IsPlain name) (uri : String) :
    (documentRoot name uri).name = name :=
  (writable_root plain uri).name_writtenElement

theorem enter_root {name : String} (plain : IsPlain name) (uri : String) :
    Scope.initial.enter ⟨encodeUtf8 (tagText name [("xmlns", uri)])⟩ = .ok (rootScope uri) := by
  rw [enter_tagText (writable_root plain uri), List.map_singleton, List.foldlM_cons,
    Scope.declare, writtenAttribute, declaredName?_bytesOf (by decide : IsPlain "xmlns"),
    if_pos rfl]
  dsimp only
  rfl

/-- Inside the root names without qualifiers are in its namespace. -/
theorem resolve_rootScope {uri : String} (bound : uri ≠ "") :
    (rootScope uri).resolve [] = .bound (encodeUtf8 (escape uri)) := by
  have some := encodeUtf8_ne_nil fun none => bound (escape_eq_empty_iff.mp none)
  obtain ⟨first, more, same⟩ := List.exists_cons_of_ne_nil some
  rw [rootScope, same]
  rfl

/-- What stands in the root of a document is read up to its end. -/
theorem ReadsBack.readsOff_root {uri : String} {indent? : Option Nat} {content : List Item}
    {children : List Node} (inside : ReadsBack (rootScope uri) indent? 1 content children)
    (name : String) :
    ReadsOff (rootScope uri) [Scope.initial] [bytesOf name]
      (rendered indent? ⟨1, true⟩ (content ++ [.closing name]))
      (children ++ breakNodes indent? 0) (encodeUtf8 (Item.closing name).render) := by
  apply (inside _ _ _).trans
  have nothing : rendered indent? ⟨0, true⟩ [] = [] := rfl
  have markup := beginsMarkup_render (rfl : (Item.closing name).isCharacterData = false) []
  rw [rendered_closing, nothing]
  rw [List.append_nil] at markup ⊢
  exact readsOff_break markup 0 _ _

/-- The tree of a document has one root. -/
theorem roots_rootNodes (declaration : Bool) (indent? : Option Nat) (name uri : String)
    (content : List Node) :
    Forest.roots (rootNodes declaration indent? name uri content) =
      [(documentRoot name uri, content)] := by
  cases declaration with
  | false => rfl
  | true =>
    rw [rootNodes, if_pos rfl, breakNodes, textNodes]
    split
    · rfl
    · rfl

theorem roots_documentNodes (declaration : Bool) (indent? : Option Nat) (name uri : String)
    (children : List Outline) :
    Forest.roots (documentNodes declaration indent? name uri children) =
      [(documentRoot name uri, documentContent indent? uri children)] :=
  roots_rootNodes declaration indent? name uri _

theorem Forest.wellFormed_append {front back : List Node} :
    Forest.WellFormed (front ++ back) ↔ Forest.WellFormed front ∧ Forest.WellFormed back := by
  induction front with
  | nil => simp [Forest.WellFormed]
  | cons node front ih =>
    rw [List.cons_append, Forest.WellFormed, Forest.WellFormed, ih, and_assoc]

theorem wellFormed_breakNodes (indent? : Option Nat) (depth : Nat) :
    Forest.WellFormed (breakNodes indent? depth) := by
  rw [breakNodes_eq]
  exact wellFormed_textNodes _

section

variable {uri : Bytes} {indent? : Option Nat}

theorem Heading.wellFormed_element (heading : Heading) :
    (heading.element (.bound uri)).WellFormed :=
  heading.writable.wellFormed_writtenElement fun _ same => by cases same

mutual

/-- The tree of an outline is well-formed. -/
theorem Outline.wellFormed_node : (outline : Outline) → (depth : Nat) →
    (outline.node (.bound uri) indent? depth).WellFormed
  | .value heading text, _ => ⟨heading.wellFormed_element, wellFormed_textNodes text⟩
  | .branch heading children, depth =>
    ⟨heading.wellFormed_element, Forest.wellFormed_append.mpr
      ⟨Outlines.wellFormed_nodes children (depth + 1), wellFormed_breakNodes indent? depth⟩⟩

/-- The trees of outlines are well-formed. -/
theorem Outlines.wellFormed_nodes : (outlines : List Outline) → (depth : Nat) →
    Forest.WellFormed (Outlines.nodes (.bound uri) indent? depth outlines)
  | [], _ => trivial
  | outline :: outlines, depth => by
    rw [Outlines.nodes, Forest.wellFormed_append]
    exact ⟨wellFormed_breakNodes indent? depth, outline.wellFormed_node depth,
      Outlines.wellFormed_nodes outlines depth⟩

end

end

/-- The tree of a document is well-formed if its content is. -/
theorem wellFormed_rootNodes {name : String} (plain : IsPlain name) (uri : String)
    (declaration : Bool) (indent? : Option Nat) {content : List Node}
    (wellFormed : Forest.WellFormed content) :
    Forest.WellFormed (rootNodes declaration indent? name uri content) := by
  rw [rootNodes, Forest.wellFormed_append]
  constructor
  · cases declaration with
    | false => trivial
    | true => exact ⟨trivial, wellFormed_breakNodes indent? 0⟩
  · refine ⟨⟨?_, wellFormed⟩, trivial⟩
    exact (writable_root plain uri).wellFormed_writtenElement fun _ same => by cases same

theorem wellFormed_documentNodes {name : String} (plain : IsPlain name) (uri : String)
    (declaration : Bool) (indent? : Option Nat) (children : List Outline) :
    Forest.WellFormed (documentNodes declaration indent? name uri children) := by
  apply wellFormed_rootNodes plain uri declaration indent?
  rw [documentContent, Forest.wellFormed_append]
  exact ⟨Outlines.wellFormed_nodes children 1, wellFormed_breakNodes indent? 0⟩

theorem withoutByteOrderMark_of_beginsMarkup {document : Bytes}
    (markup : BeginsMarkup document) : withoutByteOrderMark document = document := by
  cases document with
  | nil => rfl
  | cons byte document =>
    rw [markup byte rfl]
    rfl

/-- A document is read back with its content. -/
theorem describes_rootItems {name uri : String} (plain : IsPlain name) (bound : uri ≠ "")
    (declaration : Bool) {indent? : Option Nat} {content : List Item} {children : List Node}
    (inside : ReadsBack (rootScope uri) indent? 1 content children) :
    Describes (rendered indent? .initial (rootItems declaration name uri content))
      (rootNodes declaration indent? name uri (children ++ breakNodes indent? 0)) := by
  have root : ReadsOff Scope.initial [] []
      (encodeUtf8 (Item.opening name [("xmlns", uri)]).render ++
        rendered indent? ⟨1, true⟩ (content ++ [.closing name]))
      [.element (documentRoot name uri) (children ++ breakNodes indent? 0)] [] := by
    rw [documentRoot, ← resolve_rootScope bound]
    apply readsOff_plainElement (writable_root plain uri) (enter_root plain uri)
    rw [List.append_nil]
    exact inside.readsOff_root name
  have first : ∀ item, PrinterState.initial.lineBreak indent? item = "" := by
    intro item
    cases indent? with
    | none => rfl
    | some width => rfl
  have none : encodeUtf8 "" = [] := rfl
  have whole :
      BeginsMarkup (rendered indent? .initial (rootItems declaration name uri content)) ∧
      ReadsOff Scope.initial [] []
        (rendered indent? .initial (rootItems declaration name uri content))
        (rootNodes declaration indent? name uri (children ++ breakNodes indent? 0)) [] := by
    cases declaration with
    | false =>
      rw [rootItems, rootNodes, if_neg Bool.false_ne_true, if_neg Bool.false_ne_true,
        List.nil_append, List.nil_append, rendered_cons, first, none, List.nil_append]
      exact ⟨beginsMarkup_render rfl _, root⟩
    | true =>
      rw [rootItems, rootNodes, if_pos rfl, if_pos rfl, List.cons_append,
        List.nil_append, rendered_cons, first, none, List.nil_append]
      refine ⟨beginsMarkup_render rfl _, (readsOff_declaration _ _ _ _).trans ?_⟩
      have state : PrinterState.initial.after .declaration = ⟨0, true⟩ := rfl
      rw [state, rendered_opening]
      exact (readsOff_break (beginsMarkup_render rfl _) 0 [] []).trans root
  obtain ⟨stop, reads⟩ := whole.2 0
  have ended : eventsFrom Scope.initial [] stop [] [] = .ended := by
    rw [eventsFrom, scanFrom]
    rfl
  rw [ended, eventsFrom] at reads
  rw [Describes, read, scan, withoutByteOrderMark_of_beginsMarkup whole.1]
  exact reads

/-- A document is read back as the tree of its outline. -/
theorem describes_documentItems {name uri : String} (plain : IsPlain name) (bound : uri ≠ "")
    (declaration : Bool) (indent? : Option Nat) (children : List Outline) :
    Describes (rendered indent? .initial (documentItems declaration name uri children))
      (documentNodes declaration indent? name uri children) := by
  have inside := Outlines.readsBack (rootScope uri) indent? 1 children
  rw [resolve_rootScope bound] at inside
  exact describes_rootItems plain bound declaration inside

end GraphMarkup.Markup
