import GraphMarkup.Text.Cut

/-!
# Blank characters

Values in a document may be padded. What counts as padding is the Unicode
property White_Space, so the table below lists its twenty-five characters and
trimming removes them from both ends of a text.
-/

namespace GraphMarkup.Text

/-- The characters with the Unicode property White_Space. -/
def isBlank (char : Char) : Bool :=
  let code := char.toNat
  (9 ≤ code && code ≤ 13) || code == 0x20 || code == 0x85 || code == 0xA0 ||
    code == 0x1680 || (0x2000 ≤ code && code ≤ 0x200A) || code == 0x2028 ||
    code == 0x2029 || code == 0x202F || code == 0x205F || code == 0x3000

/-- A list of characters without the blank ones at its ends. -/
def trimChars (chars : List Char) : List Char :=
  dropRightWhile isBlank (chars.dropWhile isBlank)

/-- A text without the blank characters at its ends. -/
def trim (text : String) : String :=
  String.ofList (trimChars text.toList)

/-- The words of a text: the maximal runs of characters that are not blank. -/
def words (chars : List Char) : List (List Char) :=
  (chars.splitOnP isBlank).filter (!·.isEmpty)

end GraphMarkup.Text
