import GraphMarkup.Markup.Scanner
import GraphMarkup.Proofs.Text.Blank
import GraphMarkup.Proofs.Text.Utf8

/-!
# Plain names

The names of the vocabulary consist of letters and dots. Their bytes are their
characters one by one, and none of these has a meaning in markup.
-/

namespace GraphMarkup.Markup

open GraphMarkup.Text

/-- A name that consists of letters and dots. -/
def IsPlain (name : String) : Prop :=
  name.toList ≠ [] ∧ ∀ char ∈ name.toList, char.isAlpha ∨ char = '.'

instance (name : String) : Decidable (IsPlain name) :=
  inferInstanceAs (Decidable (_ ∧ _))

/-- The bytes of letters and of the dot. -/
def isPlainByte (byte : UInt8) : Bool :=
  byte == byteOf '.' || (byteOf 'A' ≤ byte && byte ≤ byteOf 'Z') ||
    (byteOf 'a' ≤ byte && byte ≤ byteOf 'z')

/-- Letters by their codes. -/
theorem isAlpha_iff {char : Char} :
    char.isAlpha ↔
      65 ≤ char.toNat ∧ char.toNat ≤ 90 ∨ 97 ≤ char.toNat ∧ char.toNat ≤ 122 := by
  have alpha : char.isAlpha = (decide (char.val ≥ 65 ∧ char.val ≤ 90) ||
      (decide (char.val ≥ 97) && decide (char.val ≤ 122))) := rfl
  simp only [alpha, Bool.or_eq_true, Bool.and_eq_true, decide_eq_true_eq, ge_iff_le,
    UInt32.le_iff_toNat_le]
  rfl

theorem toNat_le_of_isAlpha_or_dot {char : Char} (plain : char.isAlpha ∨ char = '.') :
    char.toNat ≤ 0x7F := by
  rcases plain with alpha | rfl
  · have codes := isAlpha_iff.mp alpha
    omega
  · decide

theorem utf8EncodeChar_of_ascii {char : Char} (ascii : char.toNat ≤ 0x7F) :
    String.utf8EncodeChar char = [byteOf char] := by
  have value : char.val.toNat ≤ 0x7F := ascii
  simp only [String.utf8EncodeChar, if_pos value]
  rfl

theorem flatMap_utf8EncodeChar_of_ascii {chars : List Char}
    (ascii : ∀ char ∈ chars, char.toNat ≤ 0x7F) :
    chars.flatMap String.utf8EncodeChar = chars.map byteOf := by
  induction chars with
  | nil => rfl
  | cons char chars ih =>
    rw [List.flatMap_cons, utf8EncodeChar_of_ascii (ascii char List.mem_cons_self),
      ih fun other member => ascii other (List.mem_cons_of_mem _ member)]
    rfl

/-- The bytes of a text of one-byte characters are its encoding. -/
theorem encodeUtf8_eq_bytesOf {text : String} (ascii : ∀ char ∈ text.toList, char.toNat ≤ 0x7F) :
    encodeUtf8 text = bytesOf text :=
  flatMap_utf8EncodeChar_of_ascii ascii

theorem encodeUtf8_append (first second : String) :
    encodeUtf8 (first ++ second) = encodeUtf8 first ++ encodeUtf8 second := by
  rw [encodeUtf8, String.toList_append, List.flatMap_append]
  rfl

theorem encodeUtf8_join (texts : List String) :
    encodeUtf8 (String.join texts) = texts.flatMap encodeUtf8 := by
  rw [encodeUtf8, String.toList_join, List.flatMap_assoc]
  rfl

theorem toNat_byteOf {char : Char} (ascii : char.toNat ≤ 0x7F) :
    (byteOf char).toNat = char.toNat := by
  rw [byteOf, UInt8.toNat_ofNat']
  omega

/-- A one-byte character is among the bytes of no other. -/
theorem eq_of_byteOf_mem_utf8EncodeChar {char other : Char} (ascii : char.toNat ≤ 0x7F)
    (member : byteOf char ∈ String.utf8EncodeChar other) : char = other := by
  by_cases narrow : other.toNat ≤ 0x7F
  · rw [utf8EncodeChar_of_ascii narrow, List.mem_singleton] at member
    have same := congrArg UInt8.toNat member
    rw [toNat_byteOf ascii, toNat_byteOf narrow] at same
    rw [← Char.ofNat_toNat char, same, Char.ofNat_toNat]
  · have wide := le_toNat_of_mem_utf8EncodeChar (Nat.lt_of_not_le narrow) member
    rw [toNat_byteOf ascii] at wide
    omega

/-- A one-byte character occurs among the bytes of a text only where it occurs in the
text. -/
theorem mem_of_byteOf_mem_encodeUtf8 {char : Char} (ascii : char.toNat ≤ 0x7F) {text : String}
    (member : byteOf char ∈ encodeUtf8 text) : char ∈ text.toList := by
  obtain ⟨other, found, byte⟩ := List.mem_flatMap.mp member
  rw [eq_of_byteOf_mem_utf8EncodeChar ascii byte]
  exact found

/-- Bytes of letters and dots are no others. -/
theorem ne_of_isPlainByte {byte other : UInt8} (plain : isPlainByte byte)
    (marked : isPlainByte other = false) : byte ≠ other := by
  rintro rfl
  rw [plain] at marked
  cases marked

namespace IsPlain

variable {name : String}

theorem encodeUtf8_eq (plain : IsPlain name) : encodeUtf8 name = bytesOf name :=
  encodeUtf8_eq_bytesOf fun char member =>
    toNat_le_of_isAlpha_or_dot (plain.2 char member)

theorem isPlainByte_of_mem (plain : IsPlain name) {byte : UInt8} (member : byte ∈ bytesOf name) :
    isPlainByte byte := by
  rcases List.mem_map.mp member with ⟨char, charMember, rfl⟩
  rcases plain.2 char charMember with alpha | rfl
  · have codes := isAlpha_iff.mp alpha
    have byte := toNat_byteOf (toNat_le_of_isAlpha_or_dot (plain.2 char charMember))
    simp only [isPlainByte, Bool.or_eq_true, Bool.and_eq_true, decide_eq_true_eq,
      UInt8.le_iff_toNat_le, byte]
    rcases codes with upper | lower
    · exact .inl (.inr upper)
    · exact .inr lower
  · decide

/-- Plain names are told apart by their bytes. -/
theorem bytesOf_inj (plain : IsPlain name) {other : String} (plain' : IsPlain other) :
    bytesOf name = bytesOf other ↔ name = other := by
  rw [← plain.encodeUtf8_eq, ← plain'.encodeUtf8_eq]
  exact ⟨fun same => encodeUtf8_injective same, congrArg encodeUtf8⟩

end IsPlain

end GraphMarkup.Markup
