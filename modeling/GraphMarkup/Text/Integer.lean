/-!
# Decimal integers in text

An integer is read digit by digit, so the first fault from the left decides
the error: a character that is no digit, or the digit at which the number
leaves its range.
-/

namespace GraphMarkup.Text

/-- Why a text is not an integer of the wanted range. -/
inductive IntegerError where
  | empty
  | invalidDigit
  | tooLarge
  | tooSmall
deriving DecidableEq, Repr

/-- The wording of an integer error. -/
def IntegerError.message : IntegerError → String
  | .empty => "cannot parse integer from empty string"
  | .invalidDigit => "invalid digit found in string"
  | .tooLarge => "number too large to fit in target type"
  | .tooSmall => "number too small to fit in target type"

/-- The value of a digit in bases up to sixteen. -/
def digitValue? (base : Nat) (char : Char) : Option Nat :=
  let value? :=
    if '0' ≤ char ∧ char ≤ '9' then some (char.toNat - '0'.toNat)
    else if 'a' ≤ char ∧ char ≤ 'f' then some (char.toNat - 'a'.toNat + 10)
    else if 'A' ≤ char ∧ char ≤ 'F' then some (char.toNat - 'A'.toNat + 10)
    else none
  value?.filter (· < base)

/-- Read digits onto `value`, which may not exceed `bound`. -/
def readDigits (base bound : Nat) (overflow : IntegerError) (value : Nat) :
    List Char → Except IntegerError Nat
  | [] => .ok value
  | char :: rest =>
      match digitValue? base char with
      | none => .error .invalidDigit
      | some digit =>
          let next := value * base + digit
          if bound < next then .error overflow
          else readDigits base bound overflow next rest

/-- Read at least one digit. A sign with nothing behind it counts as a
character that is no digit, so `absent` is the error of an empty list. -/
def readMagnitude (base bound : Nat) (overflow absent : IntegerError) :
    List Char → Except IntegerError Nat
  | [] => .error absent
  | chars => readDigits base bound overflow 0 chars

/-- Read a natural number up to `bound`, with or without a plus sign. -/
def readNatural (base bound : Nat) : List Char → Except IntegerError Nat
  | '+' :: rest => readMagnitude base bound .tooLarge .invalidDigit rest
  | chars => readMagnitude base bound .tooLarge .empty chars

/-- Read a decimal integer between `-(bound + 1)` and `bound`. -/
def readInteger (bound : Nat) : List Char → Except IntegerError Int
  | '+' :: rest => Int.ofNat <$> readMagnitude 10 bound .tooLarge .invalidDigit rest
  | '-' :: rest =>
      (fun magnitude => -Int.ofNat magnitude) <$>
        readMagnitude 10 (bound + 1) .tooSmall .invalidDigit rest
  | chars => Int.ofNat <$> readMagnitude 10 bound .tooLarge .empty chars

/-- The decimal digits of a natural number, most significant first. -/
def naturalDigits (number : Nat) : List Char :=
  Nat.toDigits 10 number

/-- The shortest decimal text of an integer. -/
def integerText (number : Int) : String :=
  let digits := naturalDigits number.natAbs
  String.ofList (if number < 0 then '-' :: digits else digits)

end GraphMarkup.Text
