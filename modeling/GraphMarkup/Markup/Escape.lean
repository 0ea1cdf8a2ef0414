import GraphMarkup.Text.Cut
import GraphMarkup.Text.Integer
import GraphMarkup.Text.Utf8

/-!
# Escaping

Five characters have a meaning in markup and are written as named references.
Reading replaces the same five names and all references to characters by
number; any other name is an error, and so is an ampersand without a
semicolon. Errors point into the text by byte offsets.
-/

namespace GraphMarkup.Markup

open GraphMarkup.Text

/-- The characters with a named reference, and their names. -/
def namedReferences : List (Char × String) :=
  [('<', "lt"), ('>', "gt"), ('&', "amp"), ('\'', "apos"), ('"', "quot")]

/-- A character as it stands in text and in attribute values. -/
def escapeChar (char : Char) : List Char :=
  match namedReferences.lookup char with
  | some name => '&' :: name.toList ++ [';']
  | none => [char]

/-- A text as it stands in character data and in attribute values. -/
def escape (text : String) : String :=
  String.ofList (text.toList.flatMap escapeChar)

/-- Why a number does not denote a character. -/
inductive CharacterError where
  | sign
  | integer (cause : IntegerError)
  | null
  | codepoint (code : Nat)
deriving DecidableEq, Repr

/-- The wording of a character error. -/
def CharacterError.message : CharacterError → String
  | .sign => "unexpected number sign"
  | .integer cause => cause.message
  | .null => "0x0 character is not permitted in XML"
  | .codepoint code => s!"`{code}` is not a valid codepoint"

/-- Why a text cannot be unescaped. Offsets count bytes. -/
inductive EscapeError where
  | unterminated (start stop : Nat)
  | unknownName (start stop : Nat) (name : String)
  | character (cause : CharacterError)
deriving DecidableEq, Repr

/-- The wording of an unescaping error. -/
def EscapeError.message : EscapeError → String
  | .unterminated start stop =>
      s!"Error while escaping character at range {start}..{stop}: Cannot find ';' after '&'"
  | .unknownName start stop name => s!"at {start}..{stop}: unrecognized entity `{name}`"
  | .character cause => "invalid character reference: " ++ cause.message

/-- The character with a number, given in decimal or behind `x` in
hexadecimal digits. -/
def characterOfNumber (chars : List Char) : Except CharacterError Char := do
  let (base, digits) :=
    match chars with
    | 'x' :: digits => (16, digits)
    | digits => (10, digits)
  if digits.head? = some '+' ∨ digits.head? = some '-' then throw .sign
  let number ← (readNatural base (UInt32.size - 1) digits).mapError .integer
  if number = 0 then throw .null
  if number.isValidChar then pure (Char.ofNat number) else throw (.codepoint number)

/-- The character that the reference between `&` and `;` stands for. -/
def referencedChar (start : Nat) (reference : List Char) : Except EscapeError Char :=
  match reference with
  | '#' :: number => (characterOfNumber number).mapError .character
  | name =>
      match namedReferences.find? fun entry => entry.2.toList == name with
      | some (char, _) => .ok char
      | none =>
          let text := String.ofList name
          .error (.unknownName start (start + text.utf8ByteSize) text)

/-- Unescape the characters from byte offset `offset` on, of `total` bytes. -/
def unescapeFrom (offset total : Nat) : List Char → Except EscapeError (List Char)
  | [] => .ok []
  | '&' :: rest =>
      let reference := rest.takeWhile fun char => char != ';' && char != '&'
      match _found : rest.dropWhile fun char => char != ';' && char != '&' with
      | ';' :: rest' => do
          let char ← referencedChar (offset + 1) reference
          let length := (String.ofList reference).utf8ByteSize
          let chars ← unescapeFrom (offset + length + 2) total rest'
          pure (char :: chars)
      | _ => .error (.unterminated offset total)
  | char :: rest => do
      let chars ← unescapeFrom (offset + char.utf8Size) total rest
      pure (char :: chars)
termination_by chars => chars.length
decreasing_by
  · have := length_lt_of_dropWhile_eq_cons _found
    simp only [List.length_cons]
    omega
  · simp

/-- A text with its references replaced. -/
def unescape (text : String) : Except EscapeError String := do
  let chars ← unescapeFrom 0 text.utf8ByteSize text.toList
  pure (String.ofList chars)

end GraphMarkup.Markup
