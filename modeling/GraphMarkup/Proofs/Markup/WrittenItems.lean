import GraphMarkup.Proofs.Markup.WrittenTag

/-!
# Reading written items

What the printer writes for an item is read as one event. Text reaches to the
next bracket, and everything else stands by itself.
-/

namespace GraphMarkup.Markup

open GraphMarkup.Text

/-- The bytes of items that are written from some state on. -/
def rendered (indent? : Option Nat) (state : PrinterState) (items : List Item) : Bytes :=
  (renderFrom indent? state items).flatMap encodeUtf8

theorem rendered_cons (indent? : Option Nat) (state : PrinterState) (item : Item)
    (items : List Item) :
    rendered indent? state (item :: items) =
      encodeUtf8 (state.lineBreak indent? item) ++
        (encodeUtf8 item.render ++ rendered indent? (state.after item) items) := by
  rw [rendered, renderFrom, List.flatMap_cons, encodeUtf8_append, List.append_assoc]
  rfl

/-- The events of an input inside some open elements. -/
def eventsFrom (scope : Scope) (outer : List Scope) (start : Nat) (opened : List Bytes)
    (input : Bytes) : Trace Resolved :=
  resolveFrom scope outer (scanFrom start opened input)

/-! ## The bytes of items -/

theorem encodeUtf8_opening (name : String) (attributes : List (String × String)) :
    encodeUtf8 (Item.opening name attributes).render =
      byteOf '<' :: (encodeUtf8 (tagText name attributes) ++ [byteOf '>']) := by
  change encodeUtf8 ("<" ++ tagText name attributes ++ ">") = _
  rw [encodeUtf8_append, encodeUtf8_append]
  rfl

theorem encodeUtf8_empty (name : String) (attributes : List (String × String)) :
    encodeUtf8 (Item.empty name attributes).render =
      byteOf '<' :: (encodeUtf8 (tagText name attributes) ++ [byteOf '/', byteOf '>']) := by
  change encodeUtf8 ("<" ++ tagText name attributes ++ "/>") = _
  rw [encodeUtf8_append, encodeUtf8_append]
  rfl

theorem encodeUtf8_closing (name : String) :
    encodeUtf8 (Item.closing name).render =
      byteOf '<' :: byteOf '/' :: (encodeUtf8 name ++ [byteOf '>']) := by
  change encodeUtf8 ("</" ++ name ++ ">") = _
  rw [encodeUtf8_append, encodeUtf8_append]
  rfl

theorem encodeUtf8_cdata (content : String) :
    encodeUtf8 (Item.cdata content).render =
      byteOf '<' :: (bytesOf "![CDATA[" ++ encodeUtf8 content ++ bytesOf "]]>") := by
  have front : encodeUtf8 "<![CDATA[" = byteOf '<' :: bytesOf "![CDATA[" := rfl
  have back : encodeUtf8 "]]>" = bytesOf "]]>" := rfl
  change encodeUtf8 ("<![CDATA[" ++ content ++ "]]>") = _
  rw [encodeUtf8_append, encodeUtf8_append, front, back]
  rfl

theorem encodeUtf8_comment (content : String) :
    encodeUtf8 (Item.comment content).render =
      byteOf '<' :: (bytesOf "!--" ++ encodeUtf8 content ++ bytesOf "-->") := by
  have front : encodeUtf8 "<!--" = byteOf '<' :: bytesOf "!--" := rfl
  have back : encodeUtf8 "-->" = bytesOf "-->" := rfl
  change encodeUtf8 ("<!--" ++ content ++ "-->") = _
  rw [encodeUtf8_append, encodeUtf8_append, front, back]
  rfl

theorem encodeUtf8_instruction (content : String) :
    encodeUtf8 (Item.instruction content).render =
      byteOf '<' :: byteOf '?' :: (encodeUtf8 content ++ bytesOf "?>") := by
  have front : encodeUtf8 "<?" = [byteOf '<', byteOf '?'] := rfl
  have back : encodeUtf8 "?>" = bytesOf "?>" := rfl
  change encodeUtf8 ("<?" ++ content ++ "?>") = _
  rw [encodeUtf8_append, encodeUtf8_append, front, back]
  rfl

/-! ## Text -/

/-- The node of a text, if it is not empty. -/
def textNodes (text : String) : List Node :=
  if text = "" then [] else [.leaf (.text (encodeUtf8 text))]

/-- Nodes are read off the front of an input, and reading goes on with the rest. -/
def ReadsOff (scope : Scope) (outer : List Scope) (opened : List Bytes) (input : Bytes)
    (nodes : List Node) (rest : Bytes) : Prop :=
  ∀ start, ∃ start', Reads (eventsFrom scope outer start opened input) nodes
    (eventsFrom scope outer start' opened rest)

namespace ReadsOff

variable {scope : Scope} {outer : List Scope} {opened : List Bytes}
  {input middle rest : Bytes} {front back : List Node}

theorem refl (input : Bytes) : ReadsOff scope outer opened input [] input :=
  fun start => ⟨start, .nil _⟩

theorem trans (first : ReadsOff scope outer opened input front middle)
    (second : ReadsOff scope outer opened middle back rest) :
    ReadsOff scope outer opened input (front ++ back) rest := by
  intro start
  obtain ⟨between, first⟩ := first start
  obtain ⟨stop, second⟩ := second between
  exact ⟨stop, first.append second⟩

end ReadsOff

/-- Text is read up to the next bracket. -/
theorem readsOff_text {text : String} (noBracket : byteOf '<' ∉ encodeUtf8 text) {rest : Bytes}
    (markup : BeginsMarkup rest) (scope : Scope) (outer : List Scope) (opened : List Bytes) :
    ReadsOff scope outer opened (encodeUtf8 text ++ rest) (textNodes text) rest := by
  by_cases none : text = ""
  · subst none
    exact .refl _
  intro start
  refine ⟨start + (encodeUtf8 text).length, ?_⟩
  rw [textNodes, if_neg none, eventsFrom,
    scanFrom_text (encodeUtf8_ne_nil none) noBracket markup]
  exact .leaf rfl (.nil _)

/-- Markup that is no tag is read as one piece. -/
theorem readsOff_leaf {opened : List Bytes} {markup : Bytes} {event : Event}
    (spells : Spells opened markup event) (isLeaf : event.isLeaf) (scope : Scope)
    (outer : List Scope) (rest : Bytes) :
    ReadsOff scope outer opened (byteOf '<' :: (markup ++ rest)) [.leaf event] rest := by
  intro start
  refine ⟨start + (markup.length + 1), ?_⟩
  rw [eventsFrom, scanFrom_markup spells]
  cases event with
  | opening tag => cases isLeaf
  | empty tag => cases isLeaf
  | closing name => cases isLeaf
  | _ => exact .leaf rfl (.nil _)

/-! ## Tags -/

/-- A written start tag is read. -/
theorem eventsFrom_opening {name : String} {attributes : List (String × String)}
    (isTag : IsTag name attributes) {scope inner : Scope}
    (enters : scope.enter ⟨encodeUtf8 (tagText name attributes)⟩ = .ok inner)
    (outer : List Scope) (start : Nat) (opened : List Bytes) (rest : Bytes) :
    ∃ start', eventsFrom scope outer start opened
        (encodeUtf8 (Item.opening name attributes).render ++ rest) =
      .item ⟨inner.resolve (encodeUtf8 name), .opening ⟨encodeUtf8 (tagText name attributes)⟩⟩
        start
        (eventsFrom inner (scope :: outer) start' (encodeUtf8 name :: opened) rest) := by
  have unslashed := isTag.scannable.getLast?_tagContent
  rw [← encodeUtf8_tagText] at unslashed
  rw [encodeUtf8_opening, List.cons_append, eventsFrom,
    scanFrom_markup (isTag.isSpelled.spells_opening unslashed opened), resolveFrom, openedAfter,
    isTag.name_tagText, enters]
  exact ⟨_, rfl⟩

/-- The written tag of an empty element is read. -/
theorem readsOff_empty {name : String} {attributes : List (String × String)}
    (isTag : IsTag name attributes) {scope inner : Scope}
    (enters : scope.enter ⟨encodeUtf8 (tagText name attributes)⟩ = .ok inner)
    (outer : List Scope) (opened : List Bytes) (rest : Bytes) :
    ReadsOff scope outer opened (encodeUtf8 (Item.empty name attributes).render ++ rest)
      [.element (writtenElement (inner.resolve (encodeUtf8 name)) name attributes) []] rest := by
  intro start
  rw [encodeUtf8_empty, List.cons_append, eventsFrom,
    scanFrom_markup (isTag.isSpelled.spells_empty opened), resolveFrom, isTag.name_tagText, enters]
  exact ⟨_, .of_empty (.nil _)⟩

/-- A written end tag is read. -/
theorem eventsFrom_closing {name : String} (named : IsName name) (scope : Scope)
    (outer : List Scope) (start : Nat) (opened : List Bytes) (rest : Bytes) :
    ∃ start', eventsFrom scope outer start (encodeUtf8 name :: opened)
        (encodeUtf8 (Item.closing name).render ++ rest) =
      .item ⟨scope.resolve (encodeUtf8 name), .closing (encodeUtf8 name)⟩ start
        (eventsFrom (outer.headD scope) outer.tail start' opened rest) := by
  have unspaced : ∀ byte ∈ ([] : Bytes), isSpace byte := fun _ member =>
    absurd member List.not_mem_nil
  have spells := spells_closing named.isSolid unspaced opened
  rw [List.append_nil] at spells
  rw [encodeUtf8_closing, List.cons_append, eventsFrom, scanFrom_markup spells, resolveFrom]
  exact ⟨_, rfl⟩

/-- An element is read with its content. -/
theorem readsOff_element {name : String} {attributes : List (String × String)}
    (isTag : IsTag name attributes) {scope inner : Scope}
    (enters : scope.enter ⟨encodeUtf8 (tagText name attributes)⟩ = .ok inner)
    {outer : List Scope} {opened : List Bytes} {content rest : Bytes} {children : List Node}
    (inside : ReadsOff inner (scope :: outer) (encodeUtf8 name :: opened) content children
      (encodeUtf8 (Item.closing name).render ++ rest)) :
    ReadsOff scope outer opened (encodeUtf8 (Item.opening name attributes).render ++ content)
      [.element (writtenElement (inner.resolve (encodeUtf8 name)) name attributes) children]
      rest := by
  intro start
  obtain ⟨first, openingRead⟩ := eventsFrom_opening isTag enters outer start opened content
  obtain ⟨last, inside⟩ := inside first
  obtain ⟨stop, closingRead⟩ :=
    eventsFrom_closing isTag.named inner (scope :: outer) last opened rest
  refine ⟨stop, ?_⟩
  rw [closingRead] at inside
  rw [openingRead]
  apply Reads.of_opening
  · rw [isTag.name_tagText]
    exact inside
  · exact .nil _

/-- The content of the declaration in front of a document. -/
def declarationContent : Bytes :=
  bytesOf "xml version=\"1.0\" encoding=\"UTF-8\""

theorem encodeUtf8_declaration : encodeUtf8 Item.declaration.render =
    byteOf '<' :: byteOf '?' :: (declarationContent ++ bytesOf "?>") := by
  decide +kernel

/-- The declaration in front of a document is read. -/
theorem readsOff_declaration (scope : Scope) (outer : List Scope) (opened : List Bytes)
    (rest : Bytes) :
    ReadsOff scope outer opened (encodeUtf8 Item.declaration.render ++ rest)
      [.leaf (.instruction declarationContent)] rest := by
  have unended : ¬bytesOf "?>" <:+: byteOf '?' :: declarationContent := by
    decide +kernel
  rw [encodeUtf8_declaration]
  exact readsOff_leaf (spells_instruction unended opened) rfl scope outer rest

/-! ## Literal text, comments and instructions -/

/-- Literal text that does not hold its end is read. -/
theorem readsOff_cdata {content : String}
    (unended : ¬bytesOf "]]>" <:+: encodeUtf8 content) (scope : Scope) (outer : List Scope)
    (opened : List Bytes) (rest : Bytes) :
    ReadsOff scope outer opened (encodeUtf8 (Item.cdata content).render ++ rest)
      [.leaf (.cdata (encodeUtf8 content))] rest := by
  rw [encodeUtf8_cdata]
  exact readsOff_leaf (spells_cdata unended opened) rfl scope outer rest

/-- A comment that does not hold its end is read. -/
theorem readsOff_comment {content : String}
    (unended : ¬bytesOf "-->" <:+: encodeUtf8 content) (scope : Scope) (outer : List Scope)
    (opened : List Bytes) (rest : Bytes) :
    ReadsOff scope outer opened (encodeUtf8 (Item.comment content).render ++ rest)
      [.leaf (.comment (encodeUtf8 content))] rest := by
  rw [encodeUtf8_comment]
  exact readsOff_leaf (spells_comment unended opened) rfl scope outer rest

/-- An instruction that does not hold its end is read. -/
theorem readsOff_instruction {content : String}
    (unended : ¬bytesOf "?>" <:+: byteOf '?' :: encodeUtf8 content) (scope : Scope)
    (outer : List Scope) (opened : List Bytes) (rest : Bytes) :
    ReadsOff scope outer opened (encodeUtf8 (Item.instruction content).render ++ rest)
      [.leaf (.instruction (encodeUtf8 content))] rest := by
  rw [encodeUtf8_instruction]
  exact readsOff_leaf (spells_instruction unended opened) rfl scope outer rest

end GraphMarkup.Markup
