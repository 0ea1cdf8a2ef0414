import GraphMarkup.Decimal.Layout
import GraphMarkup.Decimal.Reading
import GraphMarkup.Text.Blank
import GraphMarkup.Text.Integer
import GraphMarkup.Value.Kind

/-!
# Text of scalars

Every scalar kind has one written form and a wider set of texts that it is
read from. Reading ignores blank characters around a value, except that a
string is taken as it stands.
-/

namespace GraphMarkup.Value

open GraphMarkup.Decimal
open GraphMarkup.Text

/-- Why a text is not a value of the wanted kind. -/
inductive ValueError where
  | boolean (text : String)
  | integer (kind : ScalarKind) (text : String) (cause : IntegerError)
  | decimal (kind : ScalarKind) (text : String) (cause : ReadError)
  /-- An absent list where the list has to be there. -/
  | absentList
deriving DecidableEq, Repr

/-- The wording of a value error. -/
def ValueError.message : ValueError → String
  | .boolean text => s!"invalid boolean value '{text}'"
  | .integer kind text cause =>
      "invalid " ++ kind.name ++ s!" value '{text}' - " ++ cause.message
  | .decimal kind text cause =>
      "invalid " ++ kind.name ++ s!" value '{text}' - " ++ cause.message
  | .absentList => "null cannot be assigned to a non-nullable list"

/-- Read a truth value, given in words or as a digit. -/
def readBoolean (text : String) : Except ValueError Bool :=
  let trimmed := trim text
  if trimmed = "true" ∨ trimmed = "1" then .ok true
  else if trimmed = "false" ∨ trimmed = "0" then .ok false
  else .error (.boolean trimmed)

/-- Read an integer between `-(bound + 1)` and `bound`. -/
def readBounded (kind : ScalarKind) (bound : Nat) (text : String) : Except ValueError Int :=
  let trimmed := trim text
  (readInteger bound trimmed.toList).mapError (.integer kind trimmed)

/-- Read a floating-point number. Next to all decimals the infinities have a
name of their own. -/
def readDecimal (kind : ScalarKind) (format : Format) (text : String) :
    Except ValueError (Binary format) :=
  let trimmed := trim text
  if trimmed = "INF" then .ok (.infinity false)
  else if trimmed = "-INF" then .ok (.infinity true)
  else (Decimal.read format trimmed.toList).mapError (.decimal kind trimmed)

/-- Write a floating-point number with its shortest digits, positionally from
`1e-5` up to but not including `1e16`. -/
def writeDecimal {format : Format} : Binary format → String
  | .nan => "NaN"
  | .infinity negative => if negative then "-INF" else "INF"
  | .finite negative code =>
      let magnitude :=
        if code.val = 0 then ['0']
        else
          let numeral := format.shortest code
          if format.nearestCodeOfDecimal 1 (-5) ≤ code.val ∧
              code.val < format.nearestCodeOfDecimal 1 16 then
            numeral.positional
          else numeral.scientific
      String.ofList (if negative then '-' :: magnitude else magnitude)

namespace ScalarKind

/-- Read a scalar. -/
def read : (kind : ScalarKind) → String → Except ValueError kind.Carrier
  | .boolean, text => readBoolean text
  | .int, text => Int32.ofInt <$> readBounded .int (Int32.size / 2 - 1) text
  | .long, text => Int64.ofInt <$> readBounded .long (Int64.size / 2 - 1) text
  | .float, text => readDecimal .float .single text
  | .double, text => readDecimal .double .double text
  | .string, text => .ok text

/-- Write a scalar. -/
def write : (kind : ScalarKind) → kind.Carrier → String
  | .boolean, value => if value then "true" else "false"
  | .int, value => integerText value.toInt
  | .long, value => integerText value.toInt
  | .float, value => writeDecimal value
  | .double, value => writeDecimal value
  | .string, value => value

end ScalarKind

end GraphMarkup.Value
