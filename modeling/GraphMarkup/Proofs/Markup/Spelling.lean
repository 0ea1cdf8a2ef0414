import GraphMarkup.Proofs.Markup.Forest
import GraphMarkup.Proofs.Markup.MarkupScan

/-!
# Documents as they are spelled

A document is put together from pieces: elements with start tag, content and end tag, elements
that are empty tags, and whatever may stand between tags. Scanning the bytes of pieces gives
their tags and the rest of their markup, each at its place, up to what stands behind the pieces,
whatever that is. Where the qualifiers in them are bound the pieces are read as a forest.
-/

namespace GraphMarkup.Markup

open GraphMarkup.Text

/-! ## Pieces -/

/-- What may stand between tags. -/
inductive Leaf where
  | text (raw : Bytes)
  | cdata (content : Bytes)
  | comment (content : Bytes)
  | instruction (content : Bytes)
  /-- The word is spelled in any mixture of cases. -/
  | doctype (word content : Bytes)

namespace Leaf

/-- What a leaf is scanned as. -/
def event : Leaf → Event
  | text raw => .text raw
  | cdata content => .cdata content
  | comment content => .comment content
  | instruction content => .instruction content
  | doctype _ content => .doctype (content.dropWhile isSpace)

/-- The bytes of a leaf. -/
def spelling : Leaf → Bytes
  | text raw => raw
  | cdata content => byteOf '<' :: (bytesOf "![CDATA[" ++ content ++ bytesOf "]]>")
  | comment content => byteOf '<' :: (bytesOf "!--" ++ content ++ bytesOf "-->")
  | instruction content => byteOf '<' :: byteOf '?' :: (content ++ bytesOf "?>")
  | doctype word content => byteOf '<' :: byteOf '!' :: (word ++ content ++ [byteOf '>'])

/-- A leaf ends where its bytes end. -/
def IsSpelled : Leaf → Prop
  | text raw => raw ≠ [] ∧ byteOf '<' ∉ raw
  | cdata content => ¬bytesOf "]]>" <:+: content
  | comment content => ¬bytesOf "-->" <:+: content
  | instruction content => ¬bytesOf "?>" <:+: byteOf '?' :: content
  | doctype word content =>
      matchesWord "doctype" word ∧ content.dropWhile isSpace ≠ [] ∧ Bracketed 0 (word ++ content)

instance : (leaf : Leaf) → Decidable leaf.IsSpelled
  | text raw => inferInstanceAs (Decidable (raw ≠ [] ∧ byteOf '<' ∉ raw))
  | cdata content => inferInstanceAs (Decidable ¬bytesOf "]]>" <:+: content)
  | comment content => inferInstanceAs (Decidable ¬bytesOf "-->" <:+: content)
  | instruction content => inferInstanceAs (Decidable ¬bytesOf "?>" <:+: byteOf '?' :: content)
  | doctype word content => inferInstanceAs (Decidable (_ ∧ _ ∧ Bracketed 0 (word ++ content)))

/-- Whether a leaf reaches to the next bracket. -/
def isText : Leaf → Bool
  | text _ => true
  | _ => false

end Leaf

/-- A start tag. -/
def startTag (tag : Tag) : Bytes :=
  byteOf '<' :: (tag.content ++ [byteOf '>'])

/-- The tag of an element without content. -/
def emptyTag (tag : Tag) : Bytes :=
  byteOf '<' :: (tag.content ++ [byteOf '/', byteOf '>'])

/-- An end tag, in which spaces may follow the name. -/
def endTag (name gap : Bytes) : Bytes :=
  byteOf '<' :: (byteOf '/' :: (name ++ gap ++ [byteOf '>']))

/-- A part of a document as it is spelled. -/
inductive Piece where
  /-- The gap is what stands behind the name in the end tag. -/
  | element (tag : Tag) (gap : Bytes) (children : List Piece)
  | empty (tag : Tag)
  | leaf (between : Leaf)

/-- Whether a piece reaches to the next bracket. -/
def Piece.isText : Piece → Bool
  | .leaf between => between.isText
  | _ => false

mutual

/-- The bytes of a piece. -/
def Piece.spelling : Piece → Bytes
  | .element tag gap children => startTag tag ++ Pieces.spelling children ++ endTag tag.name gap
  | .empty tag => emptyTag tag
  | .leaf between => between.spelling

/-- The bytes of pieces. -/
def Pieces.spelling : List Piece → Bytes
  | [] => []
  | piece :: pieces => piece.spelling ++ Pieces.spelling pieces

end

mutual

/-- A piece ends where its bytes end. A start tag must not look like the tag of an element
without content. -/
def Piece.IsSpelled : Piece → Prop
  | .element tag gap children =>
      tag.IsSpelled ∧ tag.content.getLast? ≠ some (byteOf '/') ∧ (∀ byte ∈ gap, isSpace byte) ∧
        Pieces.AreSpelled children
  | .empty tag => tag.IsSpelled
  | .leaf between => between.IsSpelled

/-- Pieces end where their bytes end: no text follows on another. -/
def Pieces.AreSpelled : List Piece → Prop
  | [] => True
  | piece :: pieces =>
      piece.IsSpelled ∧ (piece.isText → ∀ next ∈ pieces.head?, next.isText = false) ∧
        Pieces.AreSpelled pieces

end

mutual

def Piece.decidableIsSpelled : (piece : Piece) → Decidable piece.IsSpelled
  | .element tag gap children =>
      haveI := Pieces.decidableAreSpelled children
      inferInstanceAs (Decidable (tag.IsSpelled ∧ tag.content.getLast? ≠ some (byteOf '/') ∧
        (∀ byte ∈ gap, isSpace byte) ∧ Pieces.AreSpelled children))
  | .empty tag => inferInstanceAs (Decidable tag.IsSpelled)
  | .leaf between => inferInstanceAs (Decidable between.IsSpelled)

def Pieces.decidableAreSpelled : (pieces : List Piece) → Decidable (Pieces.AreSpelled pieces)
  | [] => isTrue trivial
  | piece :: pieces =>
      haveI := piece.decidableIsSpelled
      haveI := Pieces.decidableAreSpelled pieces
      inferInstanceAs (Decidable (piece.IsSpelled ∧
        (piece.isText → ∀ next ∈ pieces.head?, next.isText = false) ∧ Pieces.AreSpelled pieces))

end

instance (piece : Piece) : Decidable piece.IsSpelled :=
  piece.decidableIsSpelled

instance (pieces : List Piece) : Decidable (Pieces.AreSpelled pieces) :=
  Pieces.decidableAreSpelled pieces

theorem Pieces.spelling_append (front back : List Piece) :
    Pieces.spelling (front ++ back) = Pieces.spelling front ++ Pieces.spelling back := by
  induction front with
  | nil => rfl
  | cons piece front ih =>
    rw [List.cons_append, Pieces.spelling, ih, Pieces.spelling, List.append_assoc]

theorem Pieces.isSpelled_of_mem {pieces : List Piece} (spelled : Pieces.AreSpelled pieces)
    {piece : Piece} (member : piece ∈ pieces) : piece.IsSpelled := by
  induction pieces with
  | nil => cases member
  | cons first pieces ih =>
    rcases List.mem_cons.mp member with rfl | member
    · exact spelled.1
    · exact ih spelled.2.2 member

/-- What is no text begins with a bracket. -/
theorem Piece.beginsMarkup {piece : Piece} (other : piece.isText = false) (rest : Bytes) :
    BeginsMarkup (piece.spelling ++ rest) := by
  cases piece with
  | element tag gap children => exact beginsMarkup_cons _
  | empty tag => exact beginsMarkup_cons _
  | leaf between =>
    cases between with
    | text raw => cases other
    | _ => exact beginsMarkup_cons _

/-- A piece that is no text may take the place of another one. -/
theorem Pieces.areSpelled_replace {piece piece' : Piece} {front back : List Piece}
    (spelled : Pieces.AreSpelled (front ++ piece :: back)) (spelled' : piece'.IsSpelled)
    (other : piece'.isText = false) : Pieces.AreSpelled (front ++ piece' :: back) := by
  induction front with
  | nil => exact ⟨spelled', fun text => absurd text (by simp [other]), spelled.2.2⟩
  | cons first front ih =>
    obtain ⟨firstSpelled, parted, more⟩ := spelled
    refine ⟨firstSpelled, fun text => ?_, ih more⟩
    cases front with
    | nil =>
      rintro next ⟨⟩
      exact other
    | cons next front => exact parted text

/-! ## Scanning -/

mutual

/-- The events of a piece that begins at a byte, in front of other events. -/
def Piece.trace (start : Nat) (behind : Trace Event) : Piece → Trace Event
  | .element tag _ children =>
      let inside := start + (startTag tag).length
      let stop := inside + (Pieces.spelling children).length
      .item (.opening tag) start
        (Pieces.trace inside (.item (.closing tag.name) stop behind) children)
  | .empty tag => .item (.empty tag) start behind
  | .leaf between => .item between.event start behind

/-- The events of pieces that begin at a byte, in front of other events. -/
def Pieces.trace (start : Nat) (behind : Trace Event) : List Piece → Trace Event
  | [] => behind
  | piece :: pieces =>
      piece.trace start (Pieces.trace (start + piece.spelling.length) behind pieces)

end

/-- A leaf is scanned as one event. -/
theorem Leaf.scanFrom_spelling (leaf : Leaf) (spelled : leaf.IsSpelled) {rest : Bytes}
    (markup : leaf.isText → BeginsMarkup rest) (start : Nat) (opened : List Bytes) :
    scanFrom start opened (leaf.spelling ++ rest) =
      .item leaf.event start (scanFrom (start + leaf.spelling.length) opened rest) := by
  cases leaf with
  | text raw => exact scanFrom_text spelled.1 spelled.2 (markup rfl) start opened
  | cdata content => exact scanFrom_markup (spells_cdata spelled opened) start rest
  | comment content => exact scanFrom_markup (spells_comment spelled opened) start rest
  | instruction content => exact scanFrom_markup (spells_instruction spelled opened) start rest
  | doctype word content =>
    exact scanFrom_markup (spells_doctype spelled.1 spelled.2.1 spelled.2.2 opened) start rest

/-- A text ends at the piece behind it. -/
theorem Pieces.beginsMarkup {piece : Piece} {pieces : List Piece} {rest : Bytes}
    (parted : piece.isText → ∀ next ∈ pieces.head?, next.isText = false)
    (markup : BeginsMarkup rest) (text : piece.isText) :
    BeginsMarkup (Pieces.spelling pieces ++ rest) := by
  cases pieces with
  | nil => exact markup
  | cons next pieces =>
    rw [Pieces.spelling, List.append_assoc]
    exact Piece.beginsMarkup (parted text next rfl) _

theorem Tag.IsSpelled.scanFrom_startTag {tag : Tag} (spelled : tag.IsSpelled)
    (unslashed : tag.content.getLast? ≠ some (byteOf '/')) (start : Nat) (opened : List Bytes)
    (rest : Bytes) :
    scanFrom start opened (startTag tag ++ rest) =
      .item (.opening tag) start
        (scanFrom (start + (startTag tag).length) (tag.name :: opened) rest) :=
  scanFrom_markup (spelled.spells_opening unslashed opened) start rest

theorem beginsMarkup_endTag (name gap rest : Bytes) : BeginsMarkup (endTag name gap ++ rest) :=
  beginsMarkup_cons _

theorem scanFrom_endTag {name gap : Bytes} (solid : IsSolid name)
    (blank : ∀ byte ∈ gap, isSpace byte) (start : Nat) (opened : List Bytes) (rest : Bytes) :
    scanFrom start (name :: opened) (endTag name gap ++ rest) =
      .item (.closing name) start (scanFrom (start + (endTag name gap).length) opened rest) :=
  scanFrom_markup (spells_closing solid blank opened) start rest

mutual

/-- A piece is scanned up to its end. -/
theorem Piece.scanFrom_spelling : {piece : Piece} → piece.IsSpelled → {rest : Bytes} →
    (piece.isText → BeginsMarkup rest) → (start : Nat) → (opened : List Bytes) →
    scanFrom start opened (piece.spelling ++ rest) =
      piece.trace start (scanFrom (start + piece.spelling.length) opened rest)
  | .element tag gap children, ⟨spelled, unslashed, blank, inner⟩, rest, _, start, opened => by
    have length : start + (Piece.element tag gap children).spelling.length =
        start + (startTag tag).length + (Pieces.spelling children).length +
          (endTag tag.name gap).length := by
      simp only [Piece.spelling, List.length_append]
      omega
    rw [length, Piece.spelling, List.append_assoc, List.append_assoc, Piece.trace,
      spelled.scanFrom_startTag unslashed,
      Pieces.scanFrom_spelling inner (beginsMarkup_endTag tag.name gap rest),
      scanFrom_endTag spelled.named blank]
  | .empty _, spelled, rest, _, start, opened =>
    scanFrom_markup (spelled.spells_empty opened) start rest
  | .leaf between, spelled, _, markup, start, opened =>
    between.scanFrom_spelling spelled markup start opened

/-- Pieces are scanned up to their end. -/
theorem Pieces.scanFrom_spelling : {pieces : List Piece} → Pieces.AreSpelled pieces →
    {rest : Bytes} → BeginsMarkup rest → (start : Nat) → (opened : List Bytes) →
    scanFrom start opened (Pieces.spelling pieces ++ rest) =
      Pieces.trace start (scanFrom (start + (Pieces.spelling pieces).length) opened rest) pieces
  | [], _, _, _, _, _ => rfl
  | piece :: pieces, ⟨spelled, parted, more⟩, rest, markup, start, opened => by
    rw [Pieces.spelling, List.append_assoc,
      Piece.scanFrom_spelling spelled (Pieces.beginsMarkup parted markup),
      Pieces.scanFrom_spelling more markup, Pieces.trace, List.length_append, Nat.add_assoc]

end

/-! ## Reading -/

mutual

/-- The node of a piece inside an element with some bindings. -/
def Piece.node (scope : Scope) : Piece → Except NamespaceError Node
  | .element tag _ children => do
      let inner ← scope.enter tag
      let nodes ← Pieces.nodes inner children
      pure (.element ⟨tag, inner.resolve tag.name⟩ nodes)
  | .empty tag => do
      let inner ← scope.enter tag
      pure (.element ⟨tag, inner.resolve tag.name⟩ [])
  | .leaf between => pure (.leaf between.event)

/-- The nodes of pieces inside an element with some bindings. -/
def Pieces.nodes (scope : Scope) : List Piece → Except NamespaceError (List Node)
  | [] => pure []
  | piece :: pieces => do
      let node ← piece.node scope
      let nodes ← Pieces.nodes scope pieces
      pure (node :: nodes)

end

mutual

/-- The events of a piece whose qualifiers are bound are those of its node. -/
theorem Piece.reads : {piece : Piece} → {scope : Scope} → {node : Node} →
    piece.node scope = .ok node → (outer : List Scope) → (start : Nat) → (behind : Trace Event) →
    Reads (resolveFrom scope outer (piece.trace start behind)) [node]
      (resolveFrom scope outer behind)
  | .element tag gap children, scope, node, found, outer, start, behind => by
    obtain ⟨inner, entered, found⟩ := bind_eq_ok_iff.mp found
    obtain ⟨nodes, inside, found⟩ := bind_eq_ok_iff.mp found
    cases found
    have content := Pieces.reads inside (scope :: outer)
      (start + (startTag tag).length) (.item (.closing tag.name)
        (start + (startTag tag).length + (Pieces.spelling children).length) behind)
    rw [Piece.trace, resolveFrom, entered]
    exact .of_opening content (.nil _)
  | .empty tag, scope, node, found, outer, start, behind => by
    obtain ⟨inner, entered, found⟩ := bind_eq_ok_iff.mp found
    cases found
    rw [Piece.trace, resolveFrom, entered]
    exact .of_empty (.nil _)
  | .leaf between, _, _, found, _, _, _ => by
    cases found
    cases between <;> exact .leaf rfl (.nil _)

/-- The events of pieces whose qualifiers are bound are those of their nodes. -/
theorem Pieces.reads : {pieces : List Piece} → {scope : Scope} → {nodes : List Node} →
    Pieces.nodes scope pieces = .ok nodes → (outer : List Scope) → (start : Nat) →
    (behind : Trace Event) →
    Reads (resolveFrom scope outer (Pieces.trace start behind pieces)) nodes
      (resolveFrom scope outer behind)
  | [], _, _, found, _, _, _ => by
    cases found
    exact .nil _
  | piece :: pieces, scope, nodes, found, outer, start, behind => by
    obtain ⟨node, first, found⟩ := bind_eq_ok_iff.mp found
    obtain ⟨more, second, found⟩ := bind_eq_ok_iff.mp found
    cases found
    exact (Piece.reads first outer start _).append (Pieces.reads second outer _ behind)

end

end GraphMarkup.Markup
