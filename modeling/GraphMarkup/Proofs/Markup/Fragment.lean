import GraphMarkup.Proofs.Markup.Outline

/-!
# Written fragments

What is put into a document besides its outline is made of elements, texts, literal texts,
comments and instructions. Names may be any names and may have qualifiers, and texts may be
escaped in any way. A fragment that is well-formed where it stands is read back as well-formed
nodes, however lines are broken; texts that touch are one text.
-/

namespace GraphMarkup.Markup

open GraphMarkup.Text

/-- A piece of content. -/
inductive Fragment where
  | element (name : String) (attributes : List (String × String)) (children : List Fragment)
  /-- An element that is written as one tag. -/
  | empty (name : String) (attributes : List (String × String))
  | text (content : String)
  /-- A text that is escaped already. -/
  | escaped (content : String)
  | cdata (content : String)
  | comment (content : String)
  | instruction (content : String)

mutual

/-- The items of a fragment. -/
def Fragment.items : Fragment → List Item
  | .element name attributes children =>
      .opening name attributes :: (Fragments.items children ++ [.closing name])
  | .empty name attributes => [.empty name attributes]
  | .text content => [.text content]
  | .escaped content => [.escaped content]
  | .cdata content => [.cdata content]
  | .comment content => [.comment content]
  | .instruction content => [.instruction content]

/-- The items of a list of fragments. -/
def Fragments.items : List Fragment → List Item
  | [] => []
  | fragment :: fragments => fragment.items ++ Fragments.items fragments

end

/-- The head of the element that a written tag begins, and the bindings inside it, if the tag
is well-formed where it stands: its names can stand in a tag, it binds no reserved qualifier,
and its own qualifier is declared. -/
def enter? (scope : Scope) (name : String) (attributes : List (String × String)) :
    Option (Element × Scope) :=
  if IsTag name attributes then
    match scope.enter ⟨encodeUtf8 (tagText name attributes)⟩ with
    | .error _ => none
    | .ok inner =>
        let resolution := inner.resolve (encodeUtf8 name)
        if resolution.isKnown then some (writtenElement resolution name attributes, inner)
        else none
  else none

/-- A text as it can stand between tags: it holds no bracket, and all references in it can be
replaced. -/
structure IsEscaped (raw : String) : Prop where
  noBracket : byteOf '<' ∉ encodeUtf8 raw
  unescapes : ∃ text, unescape raw = .ok text

instance (raw : String) : Decidable (IsEscaped raw) :=
  decidable_of_iff (byteOf '<' ∉ encodeUtf8 raw ∧ ∃ text, unescape raw = .ok text)
    ⟨fun both => ⟨both.1, both.2⟩, fun isEscaped => ⟨isEscaped.1, isEscaped.2⟩⟩

/-- The head of the element that a fragment is, if it is one that is well-formed. -/
def Fragment.head? (scope : Scope) : Fragment → Option Element
  | .element name attributes _ => (enter? scope name attributes).map Prod.fst
  | .empty name attributes => (enter? scope name attributes).map Prod.fst
  | _ => none

mutual

/-- A fragment is well-formed where some bindings are in force: so are all tags in it, texts are
escaped, and nothing else holds what ends it. -/
def Fragment.WellFormed (scope : Scope) : Fragment → Prop
  | .element name attributes children =>
      ∃ entered ∈ enter? scope name attributes, Fragments.WellFormed entered.2 children
  | .empty name attributes => (enter? scope name attributes).isSome
  | .text _ => True
  | .escaped content => IsEscaped content
  | .cdata content => ¬bytesOf "]]>" <:+: encodeUtf8 content
  | .comment content => ¬bytesOf "-->" <:+: encodeUtf8 content
  | .instruction content => ¬bytesOf "?>" <:+: byteOf '?' :: encodeUtf8 content

/-- All fragments of a list are well-formed. -/
def Fragments.WellFormed (scope : Scope) : List Fragment → Prop
  | [] => True
  | fragment :: fragments => fragment.WellFormed scope ∧ Fragments.WellFormed scope fragments

end

/-- All fragments of a list are well-formed elements whose heads are allowed. -/
def Fragments.AreElements (scope : Scope) (Allowed : Element → Prop)
    (fragments : List Fragment) : Prop :=
  ∀ fragment ∈ fragments, fragment.WellFormed scope ∧
    ∃ head ∈ fragment.head? scope, Allowed head

mutual

def Fragment.decidableWellFormed (scope : Scope) :
    (fragment : Fragment) → Decidable (fragment.WellFormed scope)
  | .element name attributes children =>
      haveI := fun scope => Fragments.decidableWellFormed scope children
      inferInstanceAs (Decidable (∃ entered ∈ enter? scope name attributes,
        Fragments.WellFormed entered.2 children))
  | .empty name attributes =>
      inferInstanceAs (Decidable ((enter? scope name attributes).isSome = true))
  | .text _ => isTrue trivial
  | .escaped content => inferInstanceAs (Decidable (IsEscaped content))
  | .cdata content => inferInstanceAs (Decidable (¬bytesOf "]]>" <:+: encodeUtf8 content))
  | .comment content => inferInstanceAs (Decidable (¬bytesOf "-->" <:+: encodeUtf8 content))
  | .instruction content =>
      inferInstanceAs (Decidable (¬bytesOf "?>" <:+: byteOf '?' :: encodeUtf8 content))

def Fragments.decidableWellFormed (scope : Scope) :
    (fragments : List Fragment) → Decidable (Fragments.WellFormed scope fragments)
  | [] => isTrue trivial
  | fragment :: fragments =>
      haveI := fragment.decidableWellFormed scope
      haveI := Fragments.decidableWellFormed scope fragments
      inferInstanceAs (Decidable (fragment.WellFormed scope ∧ Fragments.WellFormed scope fragments))

end

instance (scope : Scope) (fragment : Fragment) : Decidable (fragment.WellFormed scope) :=
  fragment.decidableWellFormed scope

instance (scope : Scope) (Allowed : Element → Prop) [DecidablePred Allowed]
    (fragments : List Fragment) : Decidable (Fragments.AreElements scope Allowed fragments) :=
  inferInstanceAs (Decidable (∀ fragment ∈ fragments, _ ∧ ∃ head ∈ fragment.head? scope, _))

theorem enter?_eq_some_iff {scope inner : Scope} {name : String}
    {attributes : List (String × String)} {head : Element} :
    enter? scope name attributes = some (head, inner) ↔
      IsTag name attributes ∧
        scope.enter ⟨encodeUtf8 (tagText name attributes)⟩ = .ok inner ∧
          (∀ qualifier, inner.resolve (encodeUtf8 name) ≠ .unknown qualifier) ∧
            head = writtenElement (inner.resolve (encodeUtf8 name)) name attributes := by
  rw [enter?]
  by_cases isTag : IsTag name attributes
  · rw [if_pos isTag]
    cases scope.enter ⟨encodeUtf8 (tagText name attributes)⟩ with
    | error cause => simp
    | ok found =>
      rw [← Resolution.isKnown_iff]
      by_cases known : (found.resolve (encodeUtf8 name)).isKnown
      · simp only [known, if_true, Option.some.injEq, Prod.mk.injEq, Except.ok.injEq]
        constructor
        · rintro ⟨rfl, rfl⟩
          exact ⟨isTag, rfl, known, rfl⟩
        · rintro ⟨_, rfl, _, rfl⟩
          exact ⟨rfl, rfl⟩
      · simp only [known]
        constructor
        · intro impossible
          cases impossible
        · rintro ⟨_, same, contrary, _⟩
          cases same
          exact absurd contrary known
  · rw [if_neg isTag]
    constructor
    · intro impossible
      cases impossible
    · rintro ⟨contrary, _⟩
      exact absurd contrary isTag

/-! ## Texts -/

namespace IsEscaped

theorem escape (text : String) : IsEscaped (escape text) :=
  ⟨not_mem_escape text, text, unescape_escape text⟩

theorem append {front back : String} (first : IsEscaped front) (second : IsEscaped back) :
    IsEscaped (front ++ back) where
  noBracket := by
    rw [encodeUtf8_append, List.mem_append]
    exact not_or.mpr ⟨first.noBracket, second.noBracket⟩
  unescapes := by
    obtain ⟨text, unescaped⟩ := first.unescapes
    obtain ⟨more, moreUnescaped⟩ := second.unescapes
    exact ⟨text ++ more, unescape_append unescaped moreUnescaped⟩

/-- In front of an item there is a line break or nothing. -/
theorem lineBreak (indent? : Option Nat) (state : PrinterState) (item : Item) :
    IsEscaped (state.lineBreak indent? item) := by
  cases indent? with
  | none => exact .escape ""
  | some width =>
    rw [PrinterState.lineBreak]
    split
    · have isEscaped := IsEscaped.escape (breakText (some width) (state.itemDepth item))
      rw [escape_breakText] at isEscaped
      exact isEscaped
    · exact .escape ""

theorem wellFormed_textNodes {raw : String} (isEscaped : IsEscaped raw) :
    Forest.WellFormed (textNodes raw) := by
  obtain ⟨text, unescaped⟩ := isEscaped.unescapes
  rw [textNodes]
  split
  · trivial
  · exact ⟨⟨text, rawText_encodeUtf8 unescaped⟩, trivial⟩

theorem wellFormed_textNodes_append_iff {raw : String} (isEscaped : IsEscaped raw)
    {nodes : List Node} :
    Forest.WellFormed (textNodes raw ++ nodes) ↔ Forest.WellFormed nodes := by
  rw [Forest.wellFormed_append]
  exact and_iff_right isEscaped.wellFormed_textNodes

end IsEscaped

theorem roots_textNodes_append (text : String) (nodes : List Node) :
    Forest.roots (textNodes text ++ nodes) = Forest.roots nodes := by
  rw [textNodes]
  split
  · rfl
  · rfl

/-! ## Items behind texts -/

section

variable {indent? : Option Nat}

theorem lineBreak_unbroken (depth : Nat) (item : Item) :
    (⟨depth, false⟩ : PrinterState).lineBreak indent? item = "" := by
  cases indent? with
  | none => rfl
  | some width => rfl

/-- An item stands behind its line break as it stands behind none. -/
theorem rendered_eq_append (indent? : Option Nat) (state : PrinterState) (item : Item)
    (items : List Item) :
    rendered indent? state (item :: items) =
      encodeUtf8 (state.lineBreak indent? item) ++
        rendered indent? ⟨state.depth, false⟩ (item :: items) := by
  have none : encodeUtf8 "" = [] := rfl
  rw [rendered_cons, rendered_cons, lineBreak_unbroken, none, List.nil_append]
  rfl

theorem rendered_unbroken (indent? : Option Nat) (depth : Nat) (item : Item)
    (items : List Item) :
    rendered indent? ⟨depth, false⟩ (item :: items) =
      encodeUtf8 item.render ++
        rendered indent? ((⟨depth, false⟩ : PrinterState).after item) items := by
  have none : encodeUtf8 "" = [] := rfl
  rw [rendered_cons, lineBreak_unbroken, none, List.nil_append]

theorem beginsMarkup_rendered {item : Item} (tagged : item.isCharacterData = false) (depth : Nat)
    (items : List Item) :
    BeginsMarkup (rendered indent? ⟨depth, false⟩ (item :: items)) := by
  rw [rendered_unbroken]
  exact beginsMarkup_render tagged _

/-- Text that was written in front of markup is read together with the line break. -/
theorem readsOff_pending {pending : String} (isEscaped : IsEscaped pending) {item : Item}
    {items : List Item} {state : PrinterState}
    (markup : BeginsMarkup (rendered indent? ⟨state.depth, false⟩ (item :: items)))
    (scope : Scope) (outer : List Scope) (opened : List Bytes) :
    ReadsOff scope outer opened
      (encodeUtf8 pending ++ rendered indent? state (item :: items))
      (textNodes (pending ++ state.lineBreak indent? item))
      (rendered indent? ⟨state.depth, false⟩ (item :: items)) := by
  rw [rendered_eq_append, ← List.append_assoc, ← encodeUtf8_append]
  exact readsOff_text (isEscaped.append (.lineBreak indent? state item)).noBracket markup scope
    outer opened

/-- Text, a node and what stands behind it are read one after the other. -/
theorem readsOff_cons (state : PrinterState) {scope : Scope} {outer : List Scope}
    {opened : List Bytes} {item : Item} {items : List Item} {node : Node} {nodes : List Node}
    {middle last : Bytes} {pending : String} (isEscaped : IsEscaped pending)
    (markup : BeginsMarkup (rendered indent? ⟨state.depth, false⟩ (item :: items)))
    (first : ReadsOff scope outer opened (rendered indent? ⟨state.depth, false⟩ (item :: items))
      [node] middle)
    (second : ReadsOff scope outer opened middle nodes last) :
    ReadsOff scope outer opened
      (encodeUtf8 pending ++ rendered indent? state (item :: items))
      (textNodes (pending ++ state.lineBreak indent? item) ++ node :: nodes) last :=
  (readsOff_pending isEscaped markup scope outer opened).trans (first.trans second)

end

/-! ## Items that are no tags -/

namespace Item

/-- An item is written as a text between tags. -/
structure IsText (item : Item) : Prop where
  isCharacterData : item.isCharacterData
  after : ∀ state, PrinterState.after state item = ⟨state.depth, false⟩
  isEscaped : IsEscaped item.render

theorem isText_text (content : String) : (text content).IsText :=
  ⟨rfl, fun _ => rfl, .escape content⟩

theorem isText_escaped {content : String} (isEscaped : IsEscaped content) :
    (escaped content).IsText :=
  ⟨rfl, fun _ => rfl, isEscaped⟩

/-- Text that was written in front of a text is read together with it. -/
theorem IsText.rendered_pending {item : Item} (isText : item.IsText) (indent? : Option Nat)
    (pending : String) (state : PrinterState) (items : List Item) :
    encodeUtf8 pending ++ rendered indent? state (item :: items) =
      encodeUtf8 (pending ++ item.render) ++ rendered indent? ⟨state.depth, false⟩ items := by
  have unbroken : state.lineBreak indent? item = "" := by
    cases indent? with
    | none => rfl
    | some width => exact if_neg (by simp [isText.isCharacterData])
  have none : encodeUtf8 "" = [] := rfl
  rw [rendered_cons, unbroken, none, List.nil_append, isText.after, encodeUtf8_append,
    List.append_assoc]

/-- An item is written as one piece of markup that is no tag. -/
structure IsLeaf (item : Item) (event : Event) : Prop where
  after : ∀ state, PrinterState.after state item = ⟨state.depth, !item.isCharacterData⟩
  wellFormed : (Node.leaf event).WellFormed
  begins : ∀ rest, BeginsMarkup (encodeUtf8 item.render ++ rest)
  reads : ∀ scope outer opened rest,
    ReadsOff scope outer opened (encodeUtf8 item.render ++ rest) [.leaf event] rest

theorem isLeaf_cdata {content : String} (unended : ¬bytesOf "]]>" <:+: encodeUtf8 content) :
    (cdata content).IsLeaf (.cdata (encodeUtf8 content)) where
  after _ := rfl
  wellFormed := ⟨content, decodeUtf8_encodeUtf8 content⟩
  begins rest := by
    rw [encodeUtf8_cdata]
    rintro byte ⟨⟩
    rfl
  reads := readsOff_cdata unended

theorem isLeaf_comment {content : String} (unended : ¬bytesOf "-->" <:+: encodeUtf8 content) :
    (comment content).IsLeaf (.comment (encodeUtf8 content)) where
  after _ := rfl
  wellFormed := trivial
  begins := beginsMarkup_render rfl
  reads := readsOff_comment unended

theorem isLeaf_instruction {content : String}
    (unended : ¬bytesOf "?>" <:+: byteOf '?' :: encodeUtf8 content) :
    (instruction content).IsLeaf (.instruction (encodeUtf8 content)) where
  after _ := rfl
  wellFormed := trivial
  begins := beginsMarkup_render rfl
  reads := readsOff_instruction unended

end Item

/-! ## Reading fragments -/

namespace Fragment

/-- An element begins with a tag. -/
theorem exists_items_of_head? {fragment : Fragment} {scope : Scope} {head : Element}
    (isHead : fragment.head? scope = some head) :
    ∃ item items, fragment.items = item :: items ∧ item.isCharacterData = false := by
  cases fragment with
  | element name attributes children => exact ⟨_, _, rfl, rfl⟩
  | empty name attributes => exact ⟨_, _, rfl, rfl⟩
  | text content => cases isHead
  | escaped content => cases isHead
  | cdata content => cases isHead
  | comment content => cases isHead
  | instruction content => cases isHead

/-- What is well-formed and no element is one item, which is a text or markup of its own. -/
theorem exists_item_of_head?_eq_none {fragment : Fragment} {scope : Scope}
    (wellFormed : fragment.WellFormed scope) (isNone : fragment.head? scope = none) :
    ∃ item, fragment.items = [item] ∧ (item.IsText ∨ ∃ event, item.IsLeaf event) := by
  cases fragment with
  | element name attributes children =>
    obtain ⟨entered, found, _⟩ := wellFormed
    rw [head?, Option.mem_def.mp found] at isNone
    cases isNone
  | empty name attributes =>
    obtain ⟨entered, found⟩ := Option.isSome_iff_exists.mp wellFormed
    rw [head?, found] at isNone
    cases isNone
  | text content => exact ⟨_, rfl, .inl (Item.isText_text content)⟩
  | escaped content => exact ⟨_, rfl, .inl (Item.isText_escaped wellFormed)⟩
  | cdata content => exact ⟨_, rfl, .inr ⟨_, Item.isLeaf_cdata wellFormed⟩⟩
  | comment content => exact ⟨_, rfl, .inr ⟨_, Item.isLeaf_comment wellFormed⟩⟩
  | instruction content => exact ⟨_, rfl, .inr ⟨_, Item.isLeaf_instruction wellFormed⟩⟩

end Fragment

section

variable {indent? : Option Nat}

mutual

/-- A well-formed element is read back with its head. -/
theorem Fragment.readsOff_of_head? : (fragment : Fragment) → {scope : Scope} → {head : Element} →
    fragment.WellFormed scope → fragment.head? scope = some head → (depth : Nat) →
    ∃ children, (Node.element head children).WellFormed ∧ ∀ outer opened items,
      ReadsOff scope outer opened (rendered indent? ⟨depth, false⟩ (fragment.items ++ items))
        [.element head children] (rendered indent? ⟨depth, true⟩ items)
  | .element name attributes children, scope, head, wellFormed, isHead, depth => by
    obtain ⟨⟨head', inner⟩, entered, inside⟩ := wellFormed
    have found := Option.mem_def.mp entered
    rw [Fragment.head?, found] at isHead
    cases isHead
    obtain ⟨isTag, enters, known, rfl⟩ := enter?_eq_some_iff.mp found
    have tagged : (Item.closing name).isCharacterData = false := rfl
    obtain ⟨nodes, nodesWellFormed, reads⟩ :=
      Fragments.readsOff children inside (.escape "") ⟨depth + 1, true⟩ tagged
    refine ⟨nodes, ⟨isTag.wellFormed_writtenElement known, nodesWellFormed⟩, ?_⟩
    intro outer opened items
    have reads := reads (scope :: outer) (encodeUtf8 name :: opened) items
    rw [Fragment.items, List.cons_append, rendered_unbroken, List.append_assoc]
    apply readsOff_element isTag enters
    rw [rendered_unbroken] at reads
    exact reads
  | .empty name attributes, scope, head, wellFormed, isHead, depth => by
    obtain ⟨⟨head', inner⟩, found, same⟩ := Option.map_eq_some_iff.mp isHead
    cases same
    obtain ⟨isTag, enters, known, rfl⟩ := enter?_eq_some_iff.mp found
    refine ⟨[], ⟨isTag.wellFormed_writtenElement known, trivial⟩, ?_⟩
    intro outer opened items
    rw [Fragment.items, List.singleton_append, rendered_unbroken]
    exact readsOff_empty isTag enters outer opened _
  | .text _, _, _, _, isHead, _ => by cases isHead
  | .escaped _, _, _, _, isHead, _ => by cases isHead
  | .cdata _, _, _, _, isHead, _ => by cases isHead
  | .comment _, _, _, _, isHead, _ => by cases isHead
  | .instruction _, _, _, _, isHead, _ => by cases isHead

/-- Well-formed fragments are read back up to the tag behind them, together with the text
that was written in front of them. -/
theorem Fragments.readsOff : (fragments : List Fragment) → {scope : Scope} →
    Fragments.WellFormed scope fragments → {pending : String} → IsEscaped pending →
    (state : PrinterState) → {item : Item} → item.isCharacterData = false →
    ∃ nodes, Forest.WellFormed nodes ∧ ∀ outer opened items,
      ReadsOff scope outer opened
        (encodeUtf8 pending ++
          rendered indent? state (Fragments.items fragments ++ item :: items))
        nodes (rendered indent? ⟨state.depth, false⟩ (item :: items))
  | [], scope, _, pending, isEscaped, state, item, tagged =>
    ⟨_, (isEscaped.append (.lineBreak indent? state item)).wellFormed_textNodes,
      fun outer opened items =>
        readsOff_pending isEscaped (beginsMarkup_rendered tagged _ items) scope outer opened⟩
  | fragment :: fragments, scope, wellFormed, pending, isEscaped, state, item, tagged => by
    have tail := fun {pending} (isEscaped : IsEscaped pending) mayBreak =>
      Fragments.readsOff fragments wellFormed.2 isEscaped ⟨state.depth, mayBreak⟩ tagged
    cases isHead : fragment.head? scope with
    | some head =>
      obtain ⟨children, nodeWellFormed, reads⟩ :=
        fragment.readsOff_of_head? wellFormed.1 isHead state.depth
      obtain ⟨nodes, nodesWellFormed, behind⟩ := tail (.escape "") true
      obtain ⟨first, more, same, markup⟩ := Fragment.exists_items_of_head? isHead
      refine ⟨textNodes (pending ++ state.lineBreak indent? first) ++
        .element head children :: nodes, ?_, ?_⟩
      · rw [(isEscaped.append (.lineBreak indent? state first)).wellFormed_textNodes_append_iff]
        exact ⟨nodeWellFormed, nodesWellFormed⟩
      intro outer opened items
      have reads := reads outer opened (Fragments.items fragments ++ item :: items)
      rw [same, List.cons_append] at reads
      rw [Fragments.items, same, List.append_assoc, List.cons_append]
      exact readsOff_cons state isEscaped (beginsMarkup_rendered markup _ _) reads
        (behind outer opened items)
    | none =>
      obtain ⟨first, same, isText | ⟨event, isLeaf⟩⟩ :=
        Fragment.exists_item_of_head?_eq_none wellFormed.1 isHead
      · obtain ⟨nodes, nodesWellFormed, behind⟩ := tail (isEscaped.append isText.isEscaped) false
        refine ⟨nodes, nodesWellFormed, ?_⟩
        intro outer opened items
        rw [Fragments.items, same, List.singleton_append, List.cons_append,
          isText.rendered_pending]
        exact behind outer opened items
      · obtain ⟨nodes, nodesWellFormed, behind⟩ := tail (.escape "") !first.isCharacterData
        refine ⟨textNodes (pending ++ state.lineBreak indent? first) ++ .leaf event :: nodes,
          ?_, ?_⟩
        · rw [(isEscaped.append (.lineBreak indent? state first)).wellFormed_textNodes_append_iff]
          exact ⟨isLeaf.wellFormed, nodesWellFormed⟩
        intro outer opened items
        have begins := isLeaf.begins (rendered indent? ⟨state.depth, !first.isCharacterData⟩
          (Fragments.items fragments ++ item :: items))
        have reads := isLeaf.reads scope outer opened (rendered indent?
          ⟨state.depth, !first.isCharacterData⟩ (Fragments.items fragments ++ item :: items))
        rw [← isLeaf.after ⟨state.depth, false⟩, ← rendered_unbroken] at begins reads
        rw [Fragments.items, same, List.singleton_append, List.cons_append]
        refine readsOff_cons state isEscaped begins reads ?_
        rw [isLeaf.after]
        exact behind outer opened items

end

/-- Well-formed elements are read back with their heads. -/
theorem Fragments.exists_readsBack {fragments : List Fragment} {scope : Scope}
    {Allowed : Element → Prop} (elements : Fragments.AreElements scope Allowed fragments)
    (depth : Nat) :
    ∃ nodes, Forest.WellFormed nodes ∧
      (Forest.roots nodes).map Prod.fst = fragments.filterMap (Fragment.head? scope) ∧
      ReadsBack scope indent? depth (Fragments.items fragments) nodes := by
  induction fragments with
  | nil => exact ⟨[], trivial, rfl, .nil⟩
  | cons fragment fragments ih =>
    obtain ⟨wellFormed, head, isHead, -⟩ := elements fragment List.mem_cons_self
    obtain ⟨nodes, nodesWellFormed, heads, behind⟩ :=
      ih fun other member => elements other (List.mem_cons_of_mem _ member)
    obtain ⟨children, nodeWellFormed, reads⟩ := fragment.readsOff_of_head? wellFormed isHead depth
    obtain ⟨first, more, same, markup⟩ := Fragment.exists_items_of_head? isHead
    have isEscaped : IsEscaped "" := .escape ""
    refine ⟨textNodes ("" ++ (⟨depth, true⟩ : PrinterState).lineBreak indent? first) ++
      .element head children :: nodes, ?_, ?_, ?_⟩
    · rw [(isEscaped.append (.lineBreak indent? _ first)).wellFormed_textNodes_append_iff]
      exact ⟨nodeWellFormed, nodesWellFormed⟩
    · rw [roots_textNodes_append, Forest.roots_element_cons, List.map_cons, heads,
        List.filterMap_cons_some isHead]
    · intro outer opened items
      have reads := reads outer opened (Fragments.items fragments ++ items)
      rw [same, List.cons_append] at reads
      rw [Fragments.items, same, List.append_assoc, List.cons_append]
      exact readsOff_cons ⟨depth, true⟩ isEscaped (beginsMarkup_rendered markup _ _) reads
        (behind outer opened items)

end

theorem Fragments.AreElements.mono {fragments : List Fragment} {scope : Scope}
    {Allowed Allowed' : Element → Prop} (wider : ∀ head, Allowed head → Allowed' head)
    (elements : Fragments.AreElements scope Allowed fragments) :
    Fragments.AreElements scope Allowed' fragments := by
  intro fragment member
  obtain ⟨wellFormed, head, isHead, allowed⟩ := elements fragment member
  exact ⟨wellFormed, head, isHead, wider head allowed⟩

/-- Nodes with the heads of allowed elements have allowed heads. -/
theorem Fragments.AreElements.allowed_of_mem_roots {fragments : List Fragment} {scope : Scope}
    {Allowed : Element → Prop} (elements : Fragments.AreElements scope Allowed fragments)
    {nodes : List Node}
    (heads : (Forest.roots nodes).map Prod.fst = fragments.filterMap (Fragment.head? scope))
    {root : Element × List Node} (member : root ∈ Forest.roots nodes) : Allowed root.1 := by
  have isHead : root.1 ∈ fragments.filterMap (Fragment.head? scope) :=
    heads ▸ List.mem_map_of_mem member
  obtain ⟨fragment, inFragments, found⟩ := List.mem_filterMap.mp isHead
  obtain ⟨-, head, isHead, allowed⟩ := elements fragment inFragments
  have same : head = root.1 := Option.some.inj ((Option.mem_def.mp isHead).symm.trans found)
  exact same ▸ allowed

end GraphMarkup.Markup
