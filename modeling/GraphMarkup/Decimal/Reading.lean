import GraphMarkup.Decimal.Rounding

/-!
# Reading decimals

The accepted form is an optional sign, digits with at most one point among or
around them, and an optional exponent; instead of the digits and the exponent
the words `inf`, `infinity` and `nan` may stand, in any case. The number is
rounded once, exactly.
-/

namespace GraphMarkup.Decimal

/-- Why a text is not a decimal number. -/
inductive ReadError where
  | empty
  | invalid
deriving DecidableEq, Repr

/-- The wording of a reading error. -/
def ReadError.message : ReadError → String
  | .empty => "cannot parse float from empty string"
  | .invalid => "invalid float literal"

/-- The number that a list of digits denotes, read onto `value`. -/
def digitsValue (value : Nat) (digits : List Char) : Nat :=
  digits.foldl (fun value digit => 10 * value + (digit.toNat - '0'.toNat)) value

/-- The sign in front of a text, and the text behind it. -/
def readSign : List Char → Bool × List Char
  | '-' :: rest => (true, rest)
  | '+' :: rest => (false, rest)
  | chars => (false, chars)

/-- An exponent marker with its exponent, or nothing at all. -/
def readExponent? : List Char → Option Int
  | [] => some 0
  | marker :: rest =>
      let (negative, digits) := readSign rest
      if (marker == 'e' || marker == 'E') && !digits.isEmpty && digits.all Char.isDigit then
        let magnitude := Int.ofNat (digitsValue 0 digits)
        some (if negative then -magnitude else magnitude)
      else none

/-- The digits of an unsigned decimal and the power of ten they are scaled by. -/
def readUnsigned? (chars : List Char) : Option (Nat × Int) :=
  let whole := chars.takeWhile Char.isDigit
  let (fraction, rest) :=
    match chars.dropWhile Char.isDigit with
    | '.' :: rest => (rest.takeWhile Char.isDigit, rest.dropWhile Char.isDigit)
    | rest => ([], rest)
  if whole.isEmpty && fraction.isEmpty then none
  else
    (readExponent? rest).map fun exponent =>
      (digitsValue 0 (whole ++ fraction), exponent - fraction.length)

/-- The number of the format that a text denotes. -/
def read (format : Format) : List Char → Except ReadError (Binary format)
  | [] => .error .empty
  | chars =>
      let (negative, unsigned) := readSign chars
      match readUnsigned? unsigned with
      | some (digits, exponent) =>
          .ok (.ofCode negative (format.nearestCodeOfDecimal digits exponent))
      | none =>
          let word := String.ofList (unsigned.map Char.toLower)
          if word = "inf" ∨ word = "infinity" then .ok (.infinity negative)
          else if word = "nan" then .ok .nan
          else .error .invalid

end GraphMarkup.Decimal
