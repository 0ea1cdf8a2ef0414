import GraphMarkup.Markup.Escape
import GraphMarkup.Text.Utf8

/-!
# Printing markup

A document is written as a list of items. With an indentation width every
item but character data begins a line of its own, unless it comes directly
behind character data, so that the text of an element stays as it was given.
-/

namespace GraphMarkup.Markup

open GraphMarkup.Text

/-- What can be written. The values of attributes are given unescaped, and
apart from texts all content is given as it is to stand in the document. -/
inductive Item where
  /-- The declaration in front of a document. -/
  | declaration
  | opening (name : String) (attributes : List (String × String))
  | closing (name : String)
  /-- An element without content, written as one tag. -/
  | empty (name : String) (attributes : List (String × String))
  /-- Text, which is given unescaped. -/
  | text (content : String)
  /-- Text that is escaped already. -/
  | escaped (content : String)
  /-- Literal text, in which nothing is escaped. -/
  | cdata (content : String)
  | comment (content : String)
  /-- An instruction to a program that processes the document. -/
  | instruction (content : String)
deriving DecidableEq, Repr

/-- A name with attributes, as it stands in a tag. -/
def tagText (name : String) (attributes : List (String × String)) : String :=
  name ++ String.join
    (attributes.map fun (key, value) => " " ++ key ++ "=\"" ++ escape value ++ "\"")

namespace Item

/-- The text of an item. -/
def render : Item → String
  | declaration => "<?xml version=\"1.0\" encoding=\"UTF-8\"?>"
  | opening name attributes => "<" ++ tagText name attributes ++ ">"
  | closing name => "</" ++ name ++ ">"
  | empty name attributes => "<" ++ tagText name attributes ++ "/>"
  | text content => escape content
  | escaped content => content
  | cdata content => "<![CDATA[" ++ content ++ "]]>"
  | comment content => "<!--" ++ content ++ "-->"
  | instruction content => "<?" ++ content ++ "?>"

/-- Whether an item is character data. -/
def isCharacterData : Item → Bool
  | text _ => true
  | escaped _ => true
  | cdata _ => true
  | _ => false

end Item

/-- Where the printer stands: how many elements are open, and whether the next
item may begin a new line. -/
structure PrinterState where
  depth : Nat
  mayBreak : Bool
deriving DecidableEq, Repr

namespace PrinterState

/-- The state in front of a document, whose first item begins no new line. -/
def initial : PrinterState :=
  ⟨0, false⟩

/-- The depth at which an item is written. -/
def itemDepth (state : PrinterState) : Item → Nat
  | .closing _ => state.depth - 1
  | _ => state.depth

/-- The state behind an item. -/
def after (state : PrinterState) (item : Item) : PrinterState :=
  let depth :=
    match item with
    | .opening .. => state.depth + 1
    | .closing _ => state.depth - 1
    | _ => state.depth
  ⟨depth, !item.isCharacterData⟩

/-- The line break and indentation in front of an item. -/
def lineBreak (state : PrinterState) (indent? : Option Nat) (item : Item) : String :=
  match indent? with
  | some width =>
      if state.mayBreak && !item.isCharacterData then
        String.ofList ('\n' :: List.replicate (state.itemDepth item * width) ' ')
      else ""
  | none => ""

end PrinterState

/-- The texts of a list of items, one for each. -/
def renderFrom (indent? : Option Nat) (state : PrinterState) : List Item → List String
  | [] => []
  | item :: items =>
      (state.lineBreak indent? item ++ item.render) ::
        renderFrom indent? (state.after item) items

/-- The text of a document. -/
def render (indent? : Option Nat) (items : List Item) : String :=
  String.join (renderFrom indent? .initial items)

end GraphMarkup.Markup
