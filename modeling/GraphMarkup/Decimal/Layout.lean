import GraphMarkup.Decimal.Shortest

/-!
# Layout of decimals

A decimal is written positionally, or with one digit before the point and an
exponent of ten behind the letter `e`. Neither form pads: there is no point
without digits behind it and no sign on a positive exponent.
-/

namespace GraphMarkup.Decimal

namespace Numeral

/-- The significant digits and the exponent of the last one, with the zeros at
the end of the digits moved into the exponent. -/
def significantDigits (numeral : Numeral) : List Char × Int :=
  let digits := Nat.toDigits 10 numeral.digits
  let zeros := (digits.reverse.takeWhile (· == '0')).length
  if zeros = digits.length then (['0'], 0)
  else (digits.take (digits.length - zeros), numeral.exponent + zeros)

/-- Positional notation. -/
def positional (numeral : Numeral) : List Char :=
  let (digits, exponent) := numeral.significantDigits
  match exponent with
  | .ofNat zeros => digits ++ List.replicate zeros '0'
  | .negSucc places =>
      let places := places + 1
      if digits.length ≤ places then
        '0' :: '.' :: List.replicate (places - digits.length) '0' ++ digits
      else
        let whole := digits.length - places
        digits.take whole ++ '.' :: digits.drop whole

/-- Scientific notation. -/
def scientific (numeral : Numeral) : List Char :=
  let (digits, exponent) := numeral.significantDigits
  let leading := exponent + (digits.length - 1 : Nat)
  let mantissa :=
    match digits with
    | first :: second :: others => first :: '.' :: second :: others
    | short => short
  let sign := if leading < 0 then ['-'] else []
  mantissa ++ 'e' :: sign ++ Nat.toDigits 10 leading.natAbs

end Numeral

end GraphMarkup.Decimal
