import GraphMarkup.Markup.Event

/-!
# Scanning markup

A document is cut into events from left to right. Character data reaches to
the next opening bracket; what follows the bracket decides the kind of markup
and with it where the markup ends. End tags have to match the innermost open
element, but the input may end while elements are open.
-/

namespace GraphMarkup.Markup

open GraphMarkup.Text

/-- The bytes of a text that consists of ASCII characters. -/
def bytesOf (text : String) : Bytes :=
  text.toList.map byteOf

/-- Cut behind the first closing bracket that is not inside quotes. -/
def cutTag? (quote? : Option UInt8) : Bytes → Option (Bytes × Bytes)
  | [] => none
  | byte :: rest =>
      match quote? with
      | none =>
          if byte == byteOf '>' then some ([], rest)
          else
            let opens := byte == byteOf '"' || byte == byteOf '\''
            (cutTag? (if opens then some byte else none) rest).map
              fun (content, rest) => (byte :: content, rest)
      | some quote =>
          (cutTag? (if byte == quote then none else some quote) rest).map
            fun (content, rest) => (byte :: content, rest)

/-- Cut behind the first closing bracket that does not belong to one of the
brackets opened before it, of which `depth` are still open. -/
def cutDoctype? (depth : Nat) : Bytes → Option (Bytes × Bytes)
  | [] => none
  | byte :: rest =>
      if byte == byteOf '>' && depth == 0 then some ([], rest)
      else
        let depth :=
          if byte == byteOf '<' then depth + 1
          else if byte == byteOf '>' then depth - 1
          else depth
        (cutDoctype? depth rest).map fun (content, rest) => (byte :: content, rest)

/-- Cutting behind a tag loses nothing but its closing bracket. -/
theorem eq_append_of_cutTag?_eq_some {quote? : Option UInt8} {input content rest : Bytes}
    (found : cutTag? quote? input = some (content, rest)) :
    input = content ++ byteOf '>' :: rest := by
  induction input generalizing quote? content with
  | nil => simp [cutTag?] at found
  | cons byte input ih =>
    have step {quote? : Option UInt8}
        (found : (cutTag? quote? input).map (fun (content, rest) => (byte :: content, rest)) =
          some (content, rest)) : byte :: input = content ++ byteOf '>' :: rest := by
      obtain ⟨⟨_, _⟩, tail, same⟩ := Option.map_eq_some_iff.1 found
      cases same
      rw [ih tail, List.cons_append]
    unfold cutTag? at found
    split at found
    · split at found
      · cases found
        simp_all
      · exact step found
    · exact step found

/-- Cutting behind a document type loses nothing but its closing bracket. -/
theorem eq_append_of_cutDoctype?_eq_some {depth : Nat} {input content rest : Bytes}
    (found : cutDoctype? depth input = some (content, rest)) :
    input = content ++ byteOf '>' :: rest := by
  induction input generalizing depth content with
  | nil => simp [cutDoctype?] at found
  | cons byte input ih =>
    unfold cutDoctype? at found
    split at found
    · cases found
      simp_all
    · obtain ⟨⟨_, _⟩, tail, same⟩ := Option.map_eq_some_iff.1 found
      cases same
      rw [ih tail, List.cons_append]

/-- One scanned piece of markup. -/
structure Scanned where
  result : Except MarkupError Event
  /-- The number of bytes in the piece. -/
  size : Nat
  /-- The input behind the piece. -/
  rest : Bytes

namespace Scanned

/-- A piece of markup that is complete. -/
def event (event : Event) (size : Nat) (rest : Bytes) : Scanned :=
  ⟨.ok event, size, rest⟩

/-- A syntax error. -/
def malformed (cause : SyntaxError) (size : Nat) (rest : Bytes) : Scanned :=
  ⟨.error (.malformed cause), size, rest⟩

/-- A syntax error because of which all of the input is taken. -/
def unclosed (cause : SyntaxError) (input : Bytes) : Scanned :=
  malformed cause input.length []

/-- A structure error. -/
def illFormed (cause : StructureError) (size : Nat) (rest : Bytes) : Scanned :=
  ⟨.error (.illFormed cause), size, rest⟩

/-- A piece together with `count` bytes in front of it. -/
def behind (count : Nat) (scanned : Scanned) : Scanned :=
  { scanned with size := scanned.size + count }

/-- Whether a piece and what stands behind it make up the input. -/
def Exhausts (scanned : Scanned) (input : Bytes) : Prop :=
  scanned.size + scanned.rest.length = input.length

end Scanned

/-- Scan a section of literal text, from behind its exclamation mark. -/
def scanCData (input : Bytes) : Scanned :=
  match cutAt? (bytesOf "]]>") input with
  | none => .unclosed .unclosedCData input
  | some (literal, rest) =>
      let size := literal.length + 3
      match dropPrefix? (bytesOf "[CDATA[") literal with
      | none => .malformed .unclosedCData size rest
      | some content => .event (.cdata content) size rest

/-- Scan a comment, from behind its exclamation mark. The two dashes in front
are not part of the end. -/
def scanComment (input : Bytes) : Scanned :=
  match cutAt? (bytesOf "-->") (input.drop 2) with
  | none => .unclosed .unclosedComment input
  | some (content, rest) =>
      let size := content.length + 5
      if input.take 2 = bytesOf "--" then .event (.comment content) size rest
      else .malformed .unclosedComment size rest

/-- Whether a list of bytes is a word in any mixture of cases; the word is
given in lower case. -/
def matchesWord (word : String) (bytes : Bytes) : Bool :=
  bytes.map (fun byte => (Char.ofNat byte.toNat).toLower) == word.toList

/-- Scan a document type, from behind its exclamation mark. -/
def scanDoctype (input : Bytes) : Scanned :=
  match cutDoctype? 0 input with
  | none => .unclosed .unclosedDoctype input
  | some (declaration, rest) =>
      let size := declaration.length + 1
      if matchesWord "doctype" (declaration.take 7) then
        match (declaration.drop 7).dropWhile isSpace with
        | [] => .illFormed .missingDoctypeName size rest
        | content => .event (.doctype content) size rest
      else .malformed .unclosedDoctype size rest

/-- Scan a processing instruction or a declaration, from its question mark. -/
def scanInstruction (input : Bytes) : Scanned :=
  match cutAt? (bytesOf "?>") input with
  | none => .unclosed .unclosedInstruction input
  | some ([], rest) => .malformed .unclosedInstruction 2 rest
  | some (_ :: content, rest) => .event (.instruction content) (content.length + 3) rest

/-- The name in an end tag: its content without the spaces behind it. -/
def closingName (content : Bytes) : Bytes :=
  match dropRightWhile isSpace content with
  | [] => content
  | name => name

/-- Scan an end tag, from behind its slash. -/
def scanClosing (opened : List Bytes) (input : Bytes) : Scanned :=
  match cutTag? none input with
  | none => .unclosed .unclosedTag input
  | some (content, rest) =>
      let name := closingName content
      let size := content.length + 1
      match opened with
      | [] => .illFormed (.unmatchedEnd name) size rest
      | expected :: _ =>
          if name = expected then .event (.closing name) size rest
          else .illFormed (.mismatchedEnd expected name) size rest

/-- Scan a start tag or an empty-element tag, from behind its bracket. -/
def scanTag (input : Bytes) : Scanned :=
  match cutTag? none input with
  | none => .unclosed .unclosedTag input
  | some (content, rest) =>
      let size := content.length + 1
      if content.getLast? = some (byteOf '/') then
        .event (.empty ⟨content.dropLast⟩) size rest
      else .event (.opening ⟨content⟩) size rest

/-- Scan one piece of markup, from behind its opening bracket. The names of
the open elements are given from the innermost outwards. -/
def scanMarkup (opened : List Bytes) (input : Bytes) : Scanned :=
  match input with
  | [] => .unclosed .unclosedTag input
  | first :: rest =>
      if first == byteOf '!' then
        match rest with
        | [] => .malformed .unknownMarkup 0 input
        | second :: _ =>
            if second == byteOf '[' then (scanCData rest).behind 1
            else if second == byteOf '-' then (scanComment rest).behind 1
            else if second == byteOf 'D' || second == byteOf 'd' then
              (scanDoctype rest).behind 1
            else .malformed .unknownMarkup 0 input
      else if first == byteOf '/' then (scanClosing opened rest).behind 1
      else if first == byteOf '?' then scanInstruction input
      else scanTag input

/-- The open elements behind an event. -/
def openedAfter (opened : List Bytes) : Event → List Bytes
  | .opening tag => tag.name :: opened
  | .closing _ => opened.tail
  | _ => opened

namespace Scanned

theorem unclosed_exhausts (cause : SyntaxError) (input : Bytes) :
    (unclosed cause input).Exhausts input := by
  simp [Exhausts, unclosed, malformed]

theorem Exhausts.behind {scanned : Scanned} {input : Bytes}
    (exhausts : scanned.Exhausts input) (byte : UInt8) :
    (scanned.behind 1).Exhausts (byte :: input) := by
  simp only [Exhausts, Scanned.behind, List.length_cons] at *
  omega

end Scanned

theorem scanCData_exhausts (input : Bytes) : (scanCData input).Exhausts input := by
  unfold scanCData
  split
  · exact Scanned.unclosed_exhausts _ _
  · have length := congrArg List.length (eq_append_of_cutAt?_eq_some ‹_›)
    simp only [List.length_append] at length
    split <;> exact (Nat.add_assoc _ _ _).trans length.symm

theorem scanComment_exhausts (input : Bytes) : (scanComment input).Exhausts input := by
  unfold scanComment
  split
  · exact Scanned.unclosed_exhausts _ _
  · have length := congrArg List.length (eq_append_of_cutAt?_eq_some ‹_›)
    simp only [List.length_append, List.length_drop] at length
    have dashes : (bytesOf "-->").length = 3 := rfl
    split <;> simp only [Scanned.Exhausts, Scanned.event, Scanned.malformed] <;> omega

theorem scanDoctype_exhausts (input : Bytes) : (scanDoctype input).Exhausts input := by
  unfold scanDoctype
  split
  · exact Scanned.unclosed_exhausts _ _
  · have length := congrArg List.length (eq_append_of_cutDoctype?_eq_some ‹_›)
    simp only [List.length_append, List.length_cons] at length
    split
    · split <;> simp only [Scanned.Exhausts, Scanned.event, Scanned.illFormed] <;> omega
    · simp only [Scanned.Exhausts, Scanned.malformed]
      omega

theorem scanInstruction_exhausts (input : Bytes) : (scanInstruction input).Exhausts input := by
  have mark : (bytesOf "?>").length = 2 := rfl
  unfold scanInstruction
  split
  · exact Scanned.unclosed_exhausts _ _
  all_goals
    have length := congrArg List.length (eq_append_of_cutAt?_eq_some ‹_›)
    simp only [List.length_append, List.length_cons, List.length_nil] at length
    simp only [Scanned.Exhausts, Scanned.event, Scanned.malformed]
    omega

theorem scanClosing_exhausts (opened : List Bytes) (input : Bytes) :
    (scanClosing opened input).Exhausts input := by
  unfold scanClosing
  split
  · exact Scanned.unclosed_exhausts _ _
  · have length := congrArg List.length (eq_append_of_cutTag?_eq_some ‹_›)
    simp only [List.length_append, List.length_cons] at length
    simp only
    split
    · simp only [Scanned.Exhausts, Scanned.illFormed]
      omega
    · split <;> simp only [Scanned.Exhausts, Scanned.event, Scanned.illFormed] <;> omega

theorem scanTag_exhausts (input : Bytes) : (scanTag input).Exhausts input := by
  unfold scanTag
  split
  · exact Scanned.unclosed_exhausts _ _
  · have length := congrArg List.length (eq_append_of_cutTag?_eq_some ‹_›)
    simp only [List.length_append, List.length_cons] at length
    simp only
    split <;> simp only [Scanned.Exhausts, Scanned.event] <;> omega

/-- Scanning a piece of markup loses nothing of the input. -/
theorem scanMarkup_exhausts (opened : List Bytes) (input : Bytes) :
    (scanMarkup opened input).Exhausts input := by
  unfold scanMarkup
  split
  · exact Scanned.unclosed_exhausts _ _
  · split
    · split
      · exact Nat.zero_add _
      · split
        · exact (scanCData_exhausts _).behind _
        split
        · exact (scanComment_exhausts _).behind _
        split
        · exact (scanDoctype_exhausts _).behind _
        · exact Nat.zero_add _
    split
    · exact (scanClosing_exhausts _ _).behind _
    split
    · exact scanInstruction_exhausts _
    · exact scanTag_exhausts _

/-- The events of `input`, which begins at byte `start` of a document. -/
def scanFrom (start : Nat) (opened : List Bytes) (input : Bytes) : Trace Event :=
  match input with
  | [] => .ended
  | first :: rest =>
      if first == byteOf '<' then
        match _scanned : scanMarkup opened rest with
        | ⟨.error error, size, _⟩ => .failed error start (start + 1 + size)
        | ⟨.ok event, size, rest'⟩ =>
            .item event start (scanFrom (start + 1 + size) (openedAfter opened event) rest')
      else
        let raw := first :: rest.takeWhile (· != byteOf '<')
        .item (.text raw) start
          (scanFrom (start + raw.length) opened (rest.dropWhile (· != byteOf '<')))
termination_by input.length
decreasing_by
  · have exhausts := scanMarkup_exhausts opened rest
    simp only [_scanned, Scanned.Exhausts] at exhausts
    simp only [List.length_cons]
    omega
  · have := length_dropWhile_le (· != byteOf '<') rest
    simp only [List.length_cons]
    omega

/-- A document without the byte order mark that may stand in front of it. -/
def withoutByteOrderMark (document : Bytes) : Bytes :=
  (dropPrefix? [0xEF, 0xBB, 0xBF] document).getD document

/-- The events of a document. -/
def scan (document : Bytes) : Trace Event :=
  scanFrom 0 [] (withoutByteOrderMark document)

end GraphMarkup.Markup
