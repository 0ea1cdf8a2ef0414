/-!
# Binary floating-point numbers

A format is given by the widths of its two fields. A finite number is a sign
and a code, the bits below the sign: codes count the non-negative numbers of
the format upwards from zero, so the order of magnitudes is the order of
codes. All payloads of "not a number" are one value.
-/

namespace GraphMarkup.Decimal

/-- A binary interchange format. -/
structure Format where
  /-- Stored bits of the significand. -/
  fractionBits : Nat
  /-- Bits of the biased exponent. -/
  exponentBits : Nat
deriving DecidableEq, Repr

namespace Format

/-- The 32-bit format. -/
def single : Format :=
  ⟨23, 8⟩

/-- The 64-bit format. -/
def double : Format :=
  ⟨52, 11⟩

/-- The number of codes that have an exponent in common. -/
def binade (format : Format) : Nat :=
  Nat.pow 2 format.fractionBits

/-- The finite numbers lie below two to the power of this limit. -/
def exponentLimit (format : Format) : Nat :=
  Nat.pow 2 (format.exponentBits - 1)

/-- The value of the sign bit. -/
def signUnit (format : Format) : Nat :=
  Nat.pow 2 (format.exponentBits + format.fractionBits)

/-- The bits of a sign alone. -/
def signBits (format : Format) (negative : Bool) : Nat :=
  if negative then format.signUnit else 0

/-- The first code that is not a finite number; it stands for infinity. -/
def infinityCode (format : Format) : Nat :=
  (Nat.pow 2 format.exponentBits - 1) * format.binade

/-- The exponent of two that code one stands for. -/
def leastExponent (format : Format) : Int :=
  2 - format.exponentLimit - format.fractionBits

/-- The significand of a code, without its exponent. -/
def significand (format : Format) (code : Nat) : Nat :=
  if code < format.binade then code else format.binade + code % format.binade

/-- How many doublings above the least exponent the unit of a code lies. -/
def scale (format : Format) (code : Nat) : Nat :=
  code / format.binade - 1

/-- The exponent of two of the last bit of a code's significand. -/
def unitExponent (format : Format) (code : Nat) : Int :=
  format.leastExponent + format.scale code

end Format

/-- A datum of a binary format. -/
inductive Binary (format : Format) where
  | nan
  | infinity (negative : Bool)
  | finite (negative : Bool) (code : Fin format.infinityCode)
deriving DecidableEq, Repr

namespace Binary

variable {format : Format}

/-- The number with the given sign and code, infinite from the format's
infinity code on. -/
def ofCode (negative : Bool) (code : Nat) : Binary format :=
  if inRange : code < format.infinityCode then .finite negative ⟨code, inRange⟩
  else .infinity negative

/-- The datum with the given bits. -/
def ofBits (bits : Nat) : Binary format :=
  let code := bits % format.signUnit
  if format.infinityCode < code then .nan
  else ofCode (bits / format.signUnit % 2 == 1) code

/-- The bits of a datum; "not a number" has only the top fraction bit set. -/
def toBits : Binary format → Nat
  | .nan => format.infinityCode + format.binade / 2
  | .infinity negative => format.signBits negative + format.infinityCode
  | .finite negative code => format.signBits negative + code

/-- Positive zero. -/
def zero : Binary format :=
  ofCode false 0

/-- Numeric equality: both zeros are equal, and "not a number" equals nothing. -/
def equals : Binary format → Binary format → Bool
  | .finite negative code, .finite negative' code' =>
      code == code' && (negative == negative' || code.val == 0)
  | .infinity negative, .infinity negative' => negative == negative'
  | _, _ => false

end Binary

end GraphMarkup.Decimal
