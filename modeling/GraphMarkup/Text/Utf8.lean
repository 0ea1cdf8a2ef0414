/-!
# UTF-8

Documents are byte sequences, and every name and value in them is UTF-8. A
byte sequence is decoded strictly, reporting the first place that no
character can begin or continue at, or leniently, with the replacement
character standing for every maximal ill-formed part.
-/

namespace GraphMarkup

/-- The form of documents outside the program. -/
abbrev Bytes :=
  List UInt8

namespace Text

/-- The bytes of a text. -/
def encodeUtf8 (text : String) : Bytes :=
  text.toList.flatMap String.utf8EncodeChar

/-- Why a byte sequence is not UTF-8. -/
structure Utf8Error where
  /-- Offset of the first byte that belongs to no character. -/
  index : Nat
  /-- Length of the ill-formed part, or nothing if the input ends inside it. -/
  length? : Option Nat
deriving DecidableEq, Repr

namespace Utf8Error

/-- The wording of a decoding error. -/
def message (error : Utf8Error) : String :=
  match error.length? with
  | some length =>
      s!"invalid utf-8 sequence of {length} bytes from index {error.index}"
  | none => s!"incomplete utf-8 byte sequence from index {error.index}"

end Utf8Error

/-- What stands at the beginning of a byte sequence that is not empty. -/
inductive Utf8Head where
  /-- A character, and the bytes behind it. -/
  | character (char : Char) (rest : Bytes)
  /-- An ill-formed part of the given length, and the bytes behind it. -/
  | illFormed (length : Nat) (rest : Bytes)
  /-- The input ends inside a character. -/
  | incomplete

/-- Read `count` continuation bytes onto `code`. The first of them must lie
between `low` and `high`, the others anywhere in `0x80` to `0xBF`; `taken` is
the number of bytes read before. -/
def utf8Continuation (taken code low high : Nat) : Nat → Bytes → Utf8Head
  | 0, rest => .character (Char.ofNat code) rest
  | _ + 1, [] => .incomplete
  | count + 1, byte :: rest =>
      if low ≤ byte.toNat ∧ byte.toNat ≤ high then
        utf8Continuation (taken + 1) (code * 64 + (byte.toNat - 0x80)) 0x80 0xBF count rest
      else
        .illFormed taken (byte :: rest)

/-- Read one character from a lead byte and the bytes behind it. Overlong
forms, surrogates and codes above `0x10FFFF` are ruled out by the range of
the second byte. -/
def utf8Head (lead : UInt8) (rest : Bytes) : Utf8Head :=
  let code := lead.toNat
  if code < 0x80 then .character (Char.ofNat code) rest
  else if code < 0xC2 then .illFormed 1 rest
  else if code < 0xE0 then utf8Continuation 1 (code - 0xC0) 0x80 0xBF 1 rest
  else if code < 0xF0 then
    utf8Continuation 1 (code - 0xE0) (if code = 0xE0 then 0xA0 else 0x80)
      (if code = 0xED then 0x9F else 0xBF) 2 rest
  else if code < 0xF5 then
    utf8Continuation 1 (code - 0xF0) (if code = 0xF0 then 0x90 else 0x80)
      (if code = 0xF4 then 0x8F else 0xBF) 3 rest
  else .illFormed 1 rest

/-- What is left behind the beginning of a byte sequence. -/
def Utf8Head.rest : Utf8Head → Bytes
  | .character _ rest => rest
  | .illFormed _ rest => rest
  | .incomplete => []

@[simp]
theorem Utf8Head.rest_character (char : Char) (rest : Bytes) :
    (Utf8Head.character char rest).rest = rest :=
  rfl

@[simp]
theorem Utf8Head.rest_illFormed (length : Nat) (rest : Bytes) :
    (Utf8Head.illFormed length rest).rest = rest :=
  rfl

theorem utf8Continuation_rest_length_le (taken code low high count : Nat)
    (bytes : Bytes) :
    (utf8Continuation taken code low high count bytes).rest.length ≤ bytes.length := by
  fun_induction utf8Continuation taken code low high count bytes with
  | case1 => simp [Utf8Head.rest]
  | case2 => simp [Utf8Head.rest]
  | case3 _ _ _ _ _ _ _ _ ih => simp only [List.length_cons]; omega
  | case4 => simp [Utf8Head.rest]

theorem utf8Head_rest_length_le (lead : UInt8) (rest : Bytes) :
    (utf8Head lead rest).rest.length ≤ rest.length := by
  simp only [utf8Head, apply_ite Utf8Head.rest, apply_ite List.length]
  have bound := fun code low high count =>
    utf8Continuation_rest_length_le 1 code low high count rest
  simp only [Utf8Head.rest_character, Utf8Head.rest_illFormed]
  grind

/-- Decode the bytes from offset `index` on. -/
def decodeUtf8From (index : Nat) : Bytes → Except Utf8Error (List Char)
  | [] => .ok []
  | lead :: rest =>
      match _headEq : utf8Head lead rest with
      | .character char rest' => do
          let chars ← decodeUtf8From (index + char.utf8Size) rest'
          pure (char :: chars)
      | .illFormed length _ => .error ⟨index, some length⟩
      | .incomplete => .error ⟨index, none⟩
termination_by bytes => bytes.length
decreasing_by
  have shorter := utf8Head_rest_length_le lead rest
  rw [_headEq] at shorter
  simp only [Utf8Head.rest_character] at shorter
  simp only [List.length_cons]
  omega

/-- The text that a byte sequence encodes. -/
def decodeUtf8 (bytes : Bytes) : Except Utf8Error String := do
  let chars ← decodeUtf8From 0 bytes
  pure (String.ofList chars)

/-- Decode with the replacement character in place of each ill-formed part. -/
def decodeUtf8LossyChars : Bytes → List Char
  | [] => []
  | lead :: rest =>
      match _headEq : utf8Head lead rest with
      | .character char rest' => char :: decodeUtf8LossyChars rest'
      | .illFormed _ rest' => '\uFFFD' :: decodeUtf8LossyChars rest'
      | .incomplete => ['\uFFFD']
termination_by bytes => bytes.length
decreasing_by
  all_goals
    have shorter := utf8Head_rest_length_le lead rest
    rw [_headEq] at shorter
    simp only [Utf8Head.rest_character, Utf8Head.rest_illFormed] at shorter
    simp only [List.length_cons]
    omega

/-- The text nearest to a byte sequence that need not be UTF-8. -/
def decodeUtf8Lossy (bytes : Bytes) : String :=
  String.ofList (decodeUtf8LossyChars bytes)

end Text

end GraphMarkup
