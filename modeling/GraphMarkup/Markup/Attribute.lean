import GraphMarkup.Text.Cut
import GraphMarkup.Text.Utf8

/-!
# Names and attributes of tags

The content of a tag is a name followed by attributes, each a key, an equals
sign and a quoted value. Attributes are scanned from left to right up to the
first fault; positions are byte offsets in the content.
-/

namespace GraphMarkup.Markup

open GraphMarkup.Text

/-- The bytes that separate the parts of a tag. -/
def isSpace (byte : UInt8) : Bool :=
  byte == 0x20 || byte == 0x09 || byte == 0x0A || byte == 0x0D

/-- The byte of an ASCII character. -/
def byteOf (char : Char) : UInt8 :=
  UInt8.ofNat char.toNat

/-- The part of a name in front of its first colon, if there is one. -/
def qualifier? (name : Bytes) : Option Bytes :=
  let front := name.takeWhile (· != byteOf ':')
  if front.length = name.length then none else some front

/-- The part of a name behind its first colon, or all of it. -/
def localName (name : Bytes) : Bytes :=
  match name.dropWhile (· != byteOf ':') with
  | [] => name
  | _ :: rest => rest

/-- An attribute as it stands in a tag. -/
structure Attribute where
  key : Bytes
  value : Bytes
deriving DecidableEq, Repr

/-- Why the attributes of a tag cannot be read. -/
inductive AttributeFault where
  | expectedEquals
  | expectedValue
  | unquotedValue
  | missingQuote (quote : Char)
  | duplicate (previous : Nat)
deriving DecidableEq, Repr

/-- A fault and its position. -/
structure AttributeError where
  position : Nat
  fault : AttributeFault
deriving DecidableEq, Repr

/-- The wording of an attribute error. -/
def AttributeError.message (error : AttributeError) : String :=
  s!"position {error.position}: " ++
    match error.fault with
    | .expectedEquals => "attribute key must be directly followed by `=` or space"
    | .expectedValue => "`=` must be followed by an attribute value"
    | .unquotedValue => "attribute value must be enclosed in `\"` or `'`"
    | .missingQuote quote => s!"missing closing quote `{quote}` in attribute value"
    | .duplicate previous =>
        s!"duplicated attribute, previous declaration at position {previous}"

/-- The attributes of a tag up to the first fault. -/
structure AttributeScan where
  found : List Attribute
  error? : Option AttributeError
deriving DecidableEq, Repr

/-- Whether a byte ends a key. -/
def endsKey (byte : UInt8) : Bool :=
  byte == byteOf '=' || isSpace byte

/-- Scan the attributes in `input`, the end of a content of `total` bytes. If
`distinct` is set, a key may not be one of those in `seen`, which are listed
with their positions. -/
def scanAttributes (distinct : Bool) (total : Nat) (seen : List (Bytes × Nat))
    (input : Bytes) : AttributeScan :=
  match _keyFound : input.dropWhile isSpace with
  | [] => ⟨[], none⟩
  | first :: rest =>
      let start := total - (rest.length + 1)
      let key := first :: rest.takeWhile (!endsKey ·)
      match _equalsFound : (rest.dropWhile (!endsKey ·)).dropWhile isSpace with
      | [] => ⟨[], some ⟨total, .expectedEquals⟩⟩
      | equals :: rest' =>
          if equals != byteOf '=' then
            ⟨[], some ⟨total - (rest'.length + 1), .expectedEquals⟩⟩
          else
            match if distinct then seen.lookup key else none with
            | some previous => ⟨[], some ⟨start, .duplicate previous⟩⟩
            | none =>
                match _valueFound : rest'.dropWhile isSpace with
                | [] => ⟨[], some ⟨total, .expectedValue⟩⟩
                | quote :: rest'' =>
                    if quote != byteOf '"' && quote != byteOf '\'' then
                      ⟨[], some ⟨total - (rest''.length + 1), .unquotedValue⟩⟩
                    else
                      match _quoteFound : rest''.dropWhile (· != quote) with
                      | [] => ⟨[], some ⟨total, .missingQuote (Char.ofNat quote.toNat)⟩⟩
                      | _ :: rest''' =>
                          let value := rest''.takeWhile (· != quote)
                          let scan := scanAttributes distinct total ((key, start) :: seen) rest'''
                          { scan with found := ⟨key, value⟩ :: scan.found }
termination_by input.length
decreasing_by
  have keyStep := length_lt_of_dropWhile_eq_cons _keyFound
  have keyRest := length_dropWhile_le (!endsKey ·) rest
  have equalsStep := length_lt_of_dropWhile_eq_cons _equalsFound
  have valueStep := length_lt_of_dropWhile_eq_cons _valueFound
  have quoteStep := length_lt_of_dropWhile_eq_cons _quoteFound
  omega

/-- A start tag or an empty-element tag: what stands between the brackets,
without the slash of an empty element. -/
structure Tag where
  content : Bytes
deriving DecidableEq, Repr

namespace Tag

/-- The name of the element. -/
def name (tag : Tag) : Bytes :=
  tag.content.takeWhile (!isSpace ·)

/-- Scan the attributes of a tag. -/
def attributes (tag : Tag) (distinct : Bool) : AttributeScan :=
  scanAttributes distinct tag.content.length [] (tag.content.dropWhile (!isSpace ·))

/-- The raw value of the first attribute with a key. Only a fault in front of
the attribute is an error, and keys may repeat. -/
def attribute? (tag : Tag) (key : Bytes) : Except AttributeError (Option Bytes) :=
  let scan := tag.attributes false
  match scan.found.find? (·.key = key), scan.error? with
  | some found, _ => .ok (some found.value)
  | none, some error => .error error
  | none, none => .ok none

end Tag

end GraphMarkup.Markup
