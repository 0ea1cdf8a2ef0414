import GraphMarkup.Value.Scalar

/-!
# Text of attribute values

A list is written as its elements, each followed by a space, and read by
cutting at spaces and leaving out what is empty. The word `null` stands for
an absent list, so no list may be spelled that way.
-/

namespace GraphMarkup.Value

open GraphMarkup.Text

/-- The text of an absent list. -/
def absentText : String :=
  "null"

/-- Write a list of scalars. -/
def writeList (kind : ScalarKind) (values : List kind.Carrier) : String :=
  String.join (values.map fun value => kind.write value ++ " ")

/-- The parts of a text between its spaces that are not empty. -/
def tokens (text : String) : List String :=
  ((text.toList.splitOn ' ').filter (!·.isEmpty)).map String.ofList

/-- Read the elements of a list. -/
def readTokens (kind : ScalarKind) (text : String) : Except ValueError (List kind.Carrier) :=
  (tokens text).mapM kind.read

/-- Whether a text says that a list is absent. -/
def saysAbsent (text : String) : Bool :=
  trim text == absentText

namespace ValueKind

/-- Read a value. -/
def read : (kind : ValueKind) → String → Except ValueError kind.Carrier
  | .scalar element, text => element.read text
  | .list element, text =>
      if saysAbsent text then .error .absentList else readTokens element text
  | .nullable element, text =>
      if saysAbsent text then .ok (none : Option (List element.Carrier))
      else some <$> readTokens element text

/-- Write a value. -/
def write : (kind : ValueKind) → kind.Carrier → String
  | .scalar element, value => element.write value
  | .list element, values => writeList element values
  | .nullable _, none => absentText
  | .nullable element, some values => writeList element values

end ValueKind

end GraphMarkup.Value
