import GraphMarkup.Text.Utf8

/-!
# Exactness of UTF-8 decoding

A byte sequence begins with a character exactly if it begins with the bytes of
that character. Strict decoding therefore accepts the encoded texts and no
other byte sequences, and it returns the text that was encoded.
-/

namespace GraphMarkup.Text

/-- A continuation byte is read onto the code, or there is none to read. -/
theorem utf8Continuation_succ_eq_character_iff {taken code low high count : Nat}
    {bytes rest : Bytes} {char : Char} :
    utf8Continuation taken code low high (count + 1) bytes = .character char rest ↔
      ∃ byte bytes', bytes = byte :: bytes' ∧ low ≤ byte.toNat ∧ byte.toNat ≤ high ∧
        utf8Continuation (taken + 1) (code * 64 + (byte.toNat - 0x80)) 0x80 0xBF count bytes' =
          .character char rest := by
  cases bytes with
  | nil => simp [utf8Continuation]
  | cons byte bytes' =>
    by_cases inRange : low ≤ byte.toNat ∧ byte.toNat ≤ high
    · rw [utf8Continuation, if_pos inRange]
      constructor
      · intro decoded
        exact ⟨byte, bytes', rfl, inRange.1, inRange.2, decoded⟩
      · rintro ⟨_, _, same, _, _, decoded⟩
        cases same
        exact decoded
    · simp only [utf8Continuation, if_neg inRange, reduceCtorEq, List.cons.injEq, false_iff]
      rintro ⟨_, _, ⟨rfl, rfl⟩, lower, upper, _⟩
      exact inRange ⟨lower, upper⟩

theorem utf8Continuation_zero_eq_character_iff {taken code low high : Nat}
    {bytes rest : Bytes} {char : Char} :
    utf8Continuation taken code low high 0 bytes = .character char rest ↔
      Char.ofNat code = char ∧ bytes = rest := by
  simp [utf8Continuation]

/-- The bytes of a character, by the range of its code. -/
theorem utf8EncodeChar_ofNat {code : Nat} (valid : code.isValidChar) :
    String.utf8EncodeChar (Char.ofNat code) =
      if code ≤ 0x7F then [UInt8.ofNat code]
      else if code ≤ 0x7FF then
        [UInt8.ofNat (code / 64 % 0x20 + 0xC0), UInt8.ofNat (code % 0x40 + 0x80)]
      else if code ≤ 0xFFFF then
        [UInt8.ofNat (code / 4096 % 0x10 + 0xE0), UInt8.ofNat (code / 64 % 0x40 + 0x80),
          UInt8.ofNat (code % 0x40 + 0x80)]
      else
        [UInt8.ofNat (code / 262144 % 0x08 + 0xF0), UInt8.ofNat (code / 4096 % 0x40 + 0x80),
          UInt8.ofNat (code / 64 % 0x40 + 0x80), UInt8.ofNat (code % 0x40 + 0x80)] := by
  have value : (Char.ofNat code).val.toNat = code := by
    rw [Char.ofNat, dif_pos valid]
    rfl
  simp only [String.utf8EncodeChar, value]

theorem byte_eq_of_toNat_eq (byte : UInt8) {number : Nat} (same : byte.toNat = number) :
    UInt8.ofNat number = byte := by
  subst same
  exact UInt8.ofNat_toNat

/-- The bytes of a character beyond the ASCII characters lie beyond them, too. -/
theorem le_toNat_of_mem_utf8EncodeChar {char : Char} {byte : UInt8} (wide : 0x7F < char.toNat)
    (member : byte ∈ String.utf8EncodeChar char) : 0x80 ≤ byte.toNat := by
  have valid : char.toNat.isValidChar := char.valid
  rw [← Char.ofNat_toNat char, utf8EncodeChar_ofNat valid, if_neg (Nat.not_le.mpr wide)]
    at member
  have continuation (number : Nat) : 0x80 ≤ (UInt8.ofNat (number % 0x40 + 0x80)).toNat := by
    rw [UInt8.toNat_ofNat']
    omega
  split at member
  · simp only [List.mem_cons, List.not_mem_nil, or_false] at member
    rcases member with rfl | rfl
    · rw [UInt8.toNat_ofNat']
      omega
    · exact continuation _
  split at member
  · simp only [List.mem_cons, List.not_mem_nil, or_false] at member
    rcases member with rfl | rfl | rfl
    · rw [UInt8.toNat_ofNat']
      omega
    · exact continuation _
    · exact continuation _
  · simp only [List.mem_cons, List.not_mem_nil, or_false] at member
    rcases member with rfl | rfl | rfl | rfl
    · rw [UInt8.toNat_ofNat']
      omega
    · exact continuation _
    · exact continuation _
    · exact continuation _

/-- The second byte, whose range depends on the first one, is a continuation byte in any case. -/
theorem second_range {lead lowLead highLead low high second : Nat} (lowered : 0x80 ≤ low)
    (raised : high ≤ 0xBF) (lower : (if lead = lowLead then low else 0x80) ≤ second)
    (upper : second ≤ if lead = highLead then high else 0xBF) :
    (0x80 ≤ second ∧ second ≤ 0xBF) ∧ (lead = lowLead → low ≤ second) ∧
      (lead = highLead → second ≤ high) := by
  split at lower <;> split at upper <;> omega

/-- What begins with a decoded character begins with its bytes. -/
theorem eq_append_of_utf8Head_eq_character {lead : UInt8} {bytes rest : Bytes} {char : Char}
    (decoded : utf8Head lead bytes = .character char rest) :
    lead :: bytes = String.utf8EncodeChar char ++ rest := by
  have bound := lead.toNat_lt
  simp only [utf8Head] at decoded
  split at decoded
  · -- One byte.
    cases decoded
    rw [utf8EncodeChar_ofNat (by simp only [Nat.isValidChar]; omega), if_pos (by omega),
      UInt8.ofNat_toNat]
    rfl
  split at decoded
  · cases decoded
  split at decoded
  · -- Two bytes.
    rcases utf8Continuation_succ_eq_character_iff.mp decoded with
      ⟨second, _, rfl, lower, upper, last⟩
    rcases utf8Continuation_zero_eq_character_iff.mp last with ⟨rfl, rfl⟩
    rw [utf8EncodeChar_ofNat (by simp only [Nat.isValidChar]; omega), if_neg (by omega),
      if_pos (by omega), byte_eq_of_toNat_eq lead (by omega),
      byte_eq_of_toNat_eq second (by omega)]
    rfl
  split at decoded
  · -- Three bytes, of which the first two rule out overlong forms and surrogates.
    rcases utf8Continuation_succ_eq_character_iff.mp decoded with
      ⟨second, _, rfl, lower, upper, decoded⟩
    rcases utf8Continuation_succ_eq_character_iff.mp decoded with
      ⟨third, _, rfl, lower', upper', last⟩
    rcases utf8Continuation_zero_eq_character_iff.mp last with ⟨rfl, rfl⟩
    obtain ⟨range, overlong, surrogate⟩ := second_range (by omega) (by omega) lower upper
    clear lower upper
    rw [utf8EncodeChar_ofNat (by simp only [Nat.isValidChar]; omega), if_neg (by omega),
      if_neg (by omega), if_pos (by omega), byte_eq_of_toNat_eq lead (by omega),
      byte_eq_of_toNat_eq second (by omega), byte_eq_of_toNat_eq third (by omega)]
    rfl
  split at decoded
  · -- Four bytes, of which the first two rule out overlong forms and codes that are too large.
    rcases utf8Continuation_succ_eq_character_iff.mp decoded with
      ⟨second, _, rfl, lower, upper, decoded⟩
    rcases utf8Continuation_succ_eq_character_iff.mp decoded with
      ⟨third, _, rfl, lower', upper', decoded⟩
    rcases utf8Continuation_succ_eq_character_iff.mp decoded with
      ⟨fourth, _, rfl, lower'', upper'', last⟩
    rcases utf8Continuation_zero_eq_character_iff.mp last with ⟨rfl, rfl⟩
    obtain ⟨range, overlong, tooLarge⟩ := second_range (by omega) (by omega) lower upper
    clear lower upper
    rw [utf8EncodeChar_ofNat (by simp only [Nat.isValidChar]; omega), if_neg (by omega),
      if_neg (by omega), if_neg (by omega), byte_eq_of_toNat_eq lead (by omega),
      byte_eq_of_toNat_eq second (by omega), byte_eq_of_toNat_eq third (by omega),
      byte_eq_of_toNat_eq fourth (by omega)]
    rfl
  · cases decoded

/-- A continuation byte adds its six bits to the code. -/
theorem utf8Continuation_cons {taken code low high count number : Nat} {bytes : Bytes}
    (lower : low ≤ number % 0x40 + 0x80) (upper : number % 0x40 + 0x80 ≤ high) :
    utf8Continuation taken code low high (count + 1)
        (UInt8.ofNat (number % 0x40 + 0x80) :: bytes) =
      utf8Continuation (taken + 1) (code * 64 + number % 0x40) 0x80 0xBF count bytes := by
  have value : (UInt8.ofNat (number % 0x40 + 0x80)).toNat = number % 0x40 + 0x80 := by
    rw [UInt8.toNat_ofNat']
    omega
  rw [utf8Continuation, value, if_pos ⟨lower, upper⟩, Nat.add_sub_cancel]

/-- A character is decoded from its own bytes, whatever stands behind them. -/
theorem utf8Head_utf8EncodeChar {lead : UInt8} {bytes rest : Bytes} {char : Char}
    (encoded : lead :: bytes = String.utf8EncodeChar char ++ rest) :
    utf8Head lead bytes = .character char rest := by
  obtain ⟨code, valid, rfl⟩ : ∃ code : Nat, code.isValidChar ∧ Char.ofNat code = char :=
    ⟨char.toNat, char.valid, Char.ofNat_toNat char⟩
  rw [utf8EncodeChar_ofNat valid] at encoded
  simp only [Nat.isValidChar] at valid
  split at encoded
  · obtain ⟨rfl, rfl⟩ := List.cons.inj encoded
    simp only [utf8Head, UInt8.toNat_ofNat']
    rw [if_pos (by omega), Nat.mod_eq_of_lt (by omega)]
  split at encoded
  · obtain ⟨rfl, rfl⟩ := List.cons.inj encoded
    simp only [utf8Head, UInt8.toNat_ofNat', List.append_eq]
    rw [if_neg (by omega), if_neg (by omega), if_pos (by omega), List.cons_append,
      utf8Continuation_cons (by omega) (by omega), utf8Continuation]
    exact congrArg (Utf8Head.character · _) (congrArg Char.ofNat (by omega))
  split at encoded
  · obtain ⟨rfl, rfl⟩ := List.cons.inj encoded
    simp only [utf8Head, UInt8.toNat_ofNat', List.append_eq]
    rw [if_neg (by omega), if_neg (by omega), if_neg (by omega), if_pos (by omega),
      List.cons_append, utf8Continuation_cons (by split <;> omega) (by split <;> omega),
      List.cons_append, utf8Continuation_cons (by omega) (by omega), utf8Continuation]
    exact congrArg (Utf8Head.character · _) (congrArg Char.ofNat (by omega))
  · obtain ⟨rfl, rfl⟩ := List.cons.inj encoded
    simp only [utf8Head, UInt8.toNat_ofNat', List.append_eq]
    rw [if_neg (by omega), if_neg (by omega), if_neg (by omega), if_neg (by omega),
      if_pos (by omega), List.cons_append,
      utf8Continuation_cons (by split <;> omega) (by split <;> omega), List.cons_append,
      utf8Continuation_cons (by omega) (by omega), List.cons_append,
      utf8Continuation_cons (by omega) (by omega), utf8Continuation]
    exact congrArg (Utf8Head.character · _) (congrArg Char.ofNat (by omega))

/-- A byte sequence begins with a character exactly if it begins with the bytes
of the character. -/
theorem utf8Head_eq_character_iff {lead : UInt8} {bytes rest : Bytes} {char : Char} :
    utf8Head lead bytes = .character char rest ↔
      lead :: bytes = String.utf8EncodeChar char ++ rest :=
  ⟨eq_append_of_utf8Head_eq_character, utf8Head_utf8EncodeChar⟩

theorem utf8EncodeChar_ne_nil (char : Char) : String.utf8EncodeChar char ≠ [] := by
  simp only [String.utf8EncodeChar]
  split
  · simp
  split
  · simp
  split <;> simp

/-- Decoding succeeds exactly on the encoded texts, at whatever offset. -/
theorem decodeUtf8From_eq_ok_iff {index : Nat} {bytes : Bytes} {chars : List Char} :
    decodeUtf8From index bytes = .ok chars ↔ bytes = chars.flatMap String.utf8EncodeChar := by
  induction chars generalizing index bytes with
  | nil =>
    cases bytes with
    | nil => simp [decodeUtf8From]
    | cons lead bytes =>
      rw [decodeUtf8From]
      split
      · cases decodeUtf8From (index + _) _ <;> simp [bind, Except.bind, pure, Except.pure]
      · simp
      · simp
  | cons char chars ih =>
    cases bytes with
    | nil =>
      simp only [decodeUtf8From, Except.ok.injEq, List.nil_eq, reduceCtorEq, List.flatMap_cons,
        List.append_eq_nil_iff, utf8EncodeChar_ne_nil, false_and]
    | cons lead bytes =>
      constructor
      · intro decoded
        rw [decodeUtf8From] at decoded
        split at decoded
        · rename_i first rest headEq
          cases tail : decodeUtf8From (index + first.utf8Size) rest with
          | error cause =>
            rw [tail] at decoded
            cases decoded
          | ok others =>
            rw [tail] at decoded
            cases decoded
            rw [List.flatMap_cons, ← ih.mp tail]
            exact utf8Head_eq_character_iff.mp headEq
        · cases decoded
        · cases decoded
      · intro encoded
        rw [List.flatMap_cons] at encoded
        have headEq := utf8Head_eq_character_iff.mpr encoded
        rw [decodeUtf8From]
        split
        · rename_i first rest found
          cases headEq.symm.trans found
          rw [ih.mpr rfl]
          rfl
        · rename_i found
          cases headEq.symm.trans found
        · rename_i found
          cases headEq.symm.trans found

/-- Strict decoding accepts exactly the encoded texts. -/
theorem decodeUtf8_eq_ok_iff {bytes : Bytes} {text : String} :
    decodeUtf8 bytes = .ok text ↔ bytes = encodeUtf8 text := by
  constructor
  · intro decoded
    cases chars : decodeUtf8From 0 bytes with
    | error cause =>
      rw [decodeUtf8, chars] at decoded
      cases decoded
    | ok found =>
      rw [decodeUtf8, chars] at decoded
      cases decoded
      rw [encodeUtf8, String.toList_ofList]
      exact decodeUtf8From_eq_ok_iff.mp chars
  · rintro rfl
    rw [decodeUtf8, decodeUtf8From_eq_ok_iff.mpr (rfl : encodeUtf8 text = _)]
    exact congrArg Except.ok String.ofList_toList

@[simp]
theorem decodeUtf8_encodeUtf8 (text : String) : decodeUtf8 (encodeUtf8 text) = .ok text :=
  decodeUtf8_eq_ok_iff.mpr rfl

theorem encodeUtf8_injective {first second : String}
    (same : encodeUtf8 first = encodeUtf8 second) : first = second := by
  have decoded := decodeUtf8_encodeUtf8 first
  rw [same, decodeUtf8_encodeUtf8] at decoded
  exact (Except.ok.inj decoded).symm

theorem decodeUtf8LossyChars_flatMap (chars : List Char) :
    decodeUtf8LossyChars (chars.flatMap String.utf8EncodeChar) = chars := by
  induction chars with
  | nil => simp [decodeUtf8LossyChars]
  | cons char chars ih =>
    rw [List.flatMap_cons]
    rcases split : String.utf8EncodeChar char with _ | ⟨lead, bytes⟩
    · exact absurd split (utf8EncodeChar_ne_nil char)
    have decoded : utf8Head lead (bytes ++ chars.flatMap String.utf8EncodeChar) =
        .character char (chars.flatMap String.utf8EncodeChar) := by
      rw [utf8Head_eq_character_iff, split]
      rfl
    rw [List.cons_append, decodeUtf8LossyChars]
    split
    · rename_i found
      rw [decoded] at found
      cases found
      rw [ih]
    · rename_i found
      rw [decoded] at found
      cases found
    · rename_i found
      rw [decoded] at found
      cases found

/-- What is UTF-8 is decoded leniently as it is strictly. -/
theorem decodeUtf8Lossy_of_decodeUtf8_eq {bytes : Bytes} {text : String}
    (decoded : decodeUtf8 bytes = .ok text) : decodeUtf8Lossy bytes = text := by
  rw [decodeUtf8_eq_ok_iff.mp decoded, decodeUtf8Lossy, encodeUtf8,
    decodeUtf8LossyChars_flatMap, String.ofList_toList]

end GraphMarkup.Text
