import GraphMarkup.Proofs.Document.ReadingTree
import GraphMarkup.Proofs.Markup.Spelling
import GraphMarkup.Proofs.Markup.WrittenItems

/-!
# Reading the content of an element

The content of an element is left out, or its character data is collected, by going through
events one after the other. However deep elements are nested in the content, and whatever they
declare, both ways end behind the end tag of the element, with the bindings from in front of it.
What is collected is the character data between the elements.
-/

namespace GraphMarkup.Document

open GraphMarkup.Attributes
open GraphMarkup.Markup
open GraphMarkup.Text

/-- The text of a piece of character data. -/
def chunk? : Piece → Option String
  | .leaf (.text raw) => some (textOf raw)
  | .leaf (.cdata content) => some (shownName content)
  | _ => none

/-- The character data among pieces, without that of the elements. -/
def valueOfPieces (pieces : List Piece) : String :=
  String.join (pieces.filterMap chunk?)

/-- The character data of an element is that of the pieces of its content. -/
theorem characterData_nodes {scope : Scope} {pieces : List Piece} {nodes : List Node}
    (bound : Pieces.nodes scope pieces = .ok nodes) :
    characterData nodes = valueOfPieces pieces := by
  induction pieces generalizing nodes with
  | nil =>
    cases bound
    rfl
  | cons piece pieces ih =>
    obtain ⟨node, first, bound⟩ := bind_eq_ok_iff.mp bound
    obtain ⟨more, second, bound⟩ := bind_eq_ok_iff.mp bound
    cases bound
    have ih := ih second
    cases piece with
    | element tag gap children =>
      obtain ⟨inner, entered, first⟩ := bind_eq_ok_iff.mp first
      obtain ⟨inside, content, first⟩ := bind_eq_ok_iff.mp first
      cases first
      exact ih
    | empty tag =>
      obtain ⟨inner, entered, first⟩ := bind_eq_ok_iff.mp first
      cases first
      exact ih
    | leaf between =>
      cases first
      cases between with
      | text raw => simp [Leaf.event, characterData, valueOfPieces, chunk?, ih]
      | cdata content => simp [Leaf.event, characterData, valueOfPieces, chunk?, ih]
      | _ => exact ih

/-- The content of an element is read up to the end tag, and reading goes on behind the tag with
the bindings from in front of the element. -/
theorem reads_beforeEndTag {name gap : Bytes} {children : List Piece} {inner : Scope}
    {nodes : List Node} (named : IsSolid name) (blank : ∀ byte ∈ gap, isSpace byte)
    (spelled : Pieces.AreSpelled children) (bound : Pieces.nodes inner children = .ok nodes)
    (scope : Scope) (outer : List Scope) (opened : List Bytes) (start : Nat) (rest : Bytes) :
    Reads
      (eventsFrom inner (scope :: outer) start (name :: opened)
        (Pieces.spelling children ++ (endTag name gap ++ rest)))
      nodes
      (.item ⟨inner.resolve name, .closing name⟩ (start + (Pieces.spelling children).length)
        (eventsFrom scope outer
          (start + (Pieces.spelling children).length + (endTag name gap).length) opened rest)) := by
  rw [eventsFrom, Pieces.scanFrom_spelling spelled (beginsMarkup_endTag name gap rest),
    scanFrom_endTag named blank]
  exact Pieces.reads bound (scope :: outer) start _

/-- An element is read up to its end tag, whatever stands behind it. Leaving its content out and
collecting its character data both end there, with the bindings from in front of the element,
and what is collected does not depend on how it is split into pieces: data with some value is
read as that value. -/
theorem reads_content {tag : Tag} {gap : Bytes} {children : List Piece} {scope inner : Scope}
    {nodes : List Node} {value : String}
    (spelled : (Piece.element tag gap children).IsSpelled)
    (entered : scope.enter tag = .ok inner)
    (declared : ∀ qualifier, inner.resolve tag.name ≠ .unknown qualifier)
    (bound : Pieces.nodes inner children = .ok nodes)
    (wellFormed : Forest.WellFormed nodes)
    (split : valueOfPieces children = value)
    (outer : List Scope) (opened : List Bytes) (start : Nat) (rest : Bytes) :
    let element := Piece.element tag gap children
    let inside := eventsFrom inner (scope :: outer) (start + (startTag tag).length)
      (tag.name :: opened) (Pieces.spelling children ++ (endTag tag.name gap ++ rest))
    let behind := eventsFrom scope outer (start + element.spelling.length) opened rest
    eventsFrom scope outer start opened (element.spelling ++ rest) =
        .item ⟨inner.resolve tag.name, .opening tag⟩ start inside ∧
      skip 0 inside = .ok behind ∧
      elementText false inside = .ok (value, behind) ∧
      ∀ {α : Type} (codec : Codec α) (owner : α),
        readDataElement codec owner tag false inside = (do
          let key ← requiredText tag ElementName.data AttributeName.key
          let owner ← (codec.read key value owner).mapError .data
          pure (owner, behind)) := by
  intro element inside behind
  obtain ⟨named, unslashed, blank, content⟩ := spelled
  have bytes : element.spelling ++ rest =
      startTag tag ++ (Pieces.spelling children ++ (endTag tag.name gap ++ rest)) := by
    simp only [element, Piece.spelling, List.append_assoc]
  have length : start + (startTag tag).length + (Pieces.spelling children).length +
      (endTag tag.name gap).length = start + element.spelling.length := by
    simp only [element, Piece.spelling, List.length_append]
    omega
  have read := reads_beforeEndTag named.named blank content bound scope outer opened
    (start + (startTag tag).length) rest
  rw [length] at read
  have left : skip 0 inside = .ok behind := skip_of_reads read 0
  have collected : elementText false inside = .ok (value, behind) := by
    rw [elementText, if_neg Bool.false_ne_true, collectText_of_reads read wellFormed,
      characterData_nodes bound, split, String.empty_append, collectText]
    simp only [contentOf_closing_of_declared declared]
    rfl
  refine ⟨?_, left, collected, ?_⟩
  · rw [bytes, eventsFrom, named.scanFrom_startTag unslashed, resolveFrom, entered]
    rfl
  · intro α codec owner
    rw [readDataElement, collected]
    rfl

/-- A tag that binds a qualifier. -/
def splitTag : Tag :=
  ⟨bytesOf "data key=\"k\" xmlns:q=\"urn:q\""⟩

/-- Data that a comment and a foreign element split. -/
def splitContent : List Piece :=
  [.leaf (.text (bytesOf "5 &lt;")), .leaf (.comment (bytesOf " n ")),
    .element ⟨bytesOf "q:note xmlns=\"urn:n\""⟩ []
      [.leaf (.text (bytesOf "x")), .empty ⟨bytesOf "e"⟩],
    .leaf (.cdata (bytesOf " 6")), .leaf (.instruction (bytesOf "p"))]

theorem reads_splitContent :
    (Piece.element splitTag (bytesOf " ") splitContent).IsSpelled ∧
      valueOfPieces splitContent = "5 < 6" ∧
      elementText false (eventsFrom (⟨bytesOf "q", bytesOf "urn:q"⟩ :: Scope.initial)
          [Scope.initial] (0 + (startTag splitTag).length) [splitTag.name]
          (Pieces.spelling splitContent ++
            (endTag splitTag.name (bytesOf " ") ++ bytesOf "<edge/>"))) =
        .ok ("5 < 6", eventsFrom Scope.initial []
          (0 + (Piece.element splitTag (bytesOf " ") splitContent).spelling.length) []
          (bytesOf "<edge/>")) := by
  have spelled : (Piece.element splitTag (bytesOf " ") splitContent).IsSpelled := by
    decide +kernel
  have entered : Scope.initial.enter splitTag =
      .ok (⟨bytesOf "q", bytesOf "urn:q"⟩ :: Scope.initial) := by
    decide +kernel
  have declared : ∀ qualifier, Scope.resolve (⟨bytesOf "q", bytesOf "urn:q"⟩ :: Scope.initial)
      splitTag.name ≠ .unknown qualifier := by
    decide +kernel
  have split : valueOfPieces splitContent = "5 < 6" := by
    decide +kernel
  have read : (fun nodes => decide (Forest.WellFormed nodes)) <$>
      Pieces.nodes (⟨bytesOf "q", bytesOf "urn:q"⟩ :: Scope.initial) splitContent = .ok true := by
    decide +kernel
  obtain ⟨nodes, bound, wellFormed⟩ := map_eq_ok_iff.mp read
  exact ⟨spelled, split,
    (reads_content spelled entered declared bound (of_decide_eq_true wellFormed) split [] [] 0
      (bytesOf "<edge/>")).2.2.1⟩

end GraphMarkup.Document
