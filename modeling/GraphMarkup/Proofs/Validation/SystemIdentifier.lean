import GraphMarkup.Proofs.Schema.GraphSchema
import GraphMarkup.Proofs.Text.Words
import GraphMarkup.Validation.Validator

/-!
# System identifiers

A document type declaration consists of a name, of an external identifier perhaps, and of an
internal subset in square brackets perhaps. The system identifier is looked for in front of the
first bracket, between quotes of either kind. So it is found as it was written if no literal
contains a bracket or a quote. Otherwise these cut the literals: a system identifier ends at the
first of them, and behind a public identifier with one of them something else is found, or nothing.
-/

namespace GraphMarkup.Validation

open GraphMarkup.Markup
open GraphMarkup.Schema
open GraphMarkup.Text

/-! ## The content of a declaration -/

/-- A quote of either kind. -/
def isQuote (char : Char) : Bool :=
  char == '"' || char == '\''

/-- A character that cuts no literal. -/
def isPlain (char : Char) : Bool :=
  char != '[' && !isQuote char

/-- Blank characters where there may be some. -/
structure Padding where
  chars : List Char
  blank : ∀ char ∈ chars, isBlank char

/-- Blank characters between two parts. -/
structure Gap extends Padding where
  notEmpty : chars ≠ []

/-- A text in quotes of one kind, which it does not contain. -/
structure Literal where
  quote : Char
  content : List Char
  quotes : isQuote quote
  closed : quote ∉ content

namespace Literal

/-- A literal as it stands in a declaration. -/
def chars (literal : Literal) : List Char :=
  literal.quote :: (literal.content ++ [literal.quote])

/-- No character of a literal cuts it. -/
def IsPlain (literal : Literal) : Prop :=
  ∀ char ∈ literal.content, isPlain char

end Literal

/-- What identifies a definition outside the document: a system identifier, with a public one in
front of it or without. -/
structure ExternalId where
  /-- What stands in front of the keyword. -/
  before : Gap
  /-- What stands behind the keyword. -/
  behind : Gap
  /-- The public identifier, with what stands behind it. -/
  public? : Option (Literal × Gap)
  system : Literal

namespace ExternalId

/-- The keyword of an external identifier. -/
def keyword (external : ExternalId) : List Char :=
  match external.public? with
  | none => "SYSTEM".toList
  | some _ => "PUBLIC".toList

/-- The literals of an external identifier. -/
def literals (external : ExternalId) : List Char :=
  match external.public? with
  | none => external.system.chars
  | some (publicId, gap) => publicId.chars ++ (gap.chars ++ external.system.chars)

/-- An external identifier as it stands in a declaration. -/
def chars (external : ExternalId) : List Char :=
  external.before.chars ++ (external.keyword ++ (external.behind.chars ++ external.literals))

end ExternalId

/-- The content of a document type declaration. -/
structure DoctypeContent where
  front : Padding
  name : List Char
  named : name ≠ []
  nameChars : ∀ char ∈ name, isBlank char = false ∧ isPlain char
  external? : Option ExternalId
  gap : Padding
  /-- What stands between the brackets of the internal subset. -/
  subset? : Option (List Char)
  back : Padding

namespace DoctypeContent

/-- What stands behind the name and the external identifier. -/
def rest (content : DoctypeContent) : List Char :=
  content.gap.chars ++
    ((content.subset?.elim [] fun subset => '[' :: (subset ++ [']'])) ++ content.back.chars)

/-- The content as it stands in a declaration. -/
def chars (content : DoctypeContent) : List Char :=
  content.front.chars ++
    (content.name ++ (content.external?.elim [] ExternalId.chars ++ content.rest))

end DoctypeContent

/-! ## What is found -/

/-- What is found in a literal: the part in front of the first character that cuts it. -/
def Literal.found (literal : Literal) : List Char :=
  literal.content.takeWhile isPlain

/-- What is found behind a public identifier. A quote that cuts it closes the first quoted part, and
the next quote opens the second: another one in the identifier, or the one that closes it. Behind a
bracket there is no quoted part. -/
def ExternalId.foundBehind (external : ExternalId) (publicId : Literal) (gap : Gap) :
    Option (List Char) :=
  match publicId.content.dropWhile isPlain with
  | [] => some external.system.found
  | '[' :: _ => none
  | _ :: rest =>
      match rest.dropWhile isPlain with
      | [] => some gap.chars
      | '[' :: _ => none
      | _ :: rest => some (rest.takeWhile isPlain)

/-- What is found in an external identifier. -/
def ExternalId.found? (external : ExternalId) : Option (List Char) :=
  match external.public? with
  | none => some external.system.found
  | some (publicId, gap) => external.foundBehind publicId gap

theorem isPlain_of_isBlank {char : Char} (blank : isBlank char) : isPlain char := by
  by_contra cuts
  have oneOf : char = '[' ∨ char = '"' ∨ char = '\'' := by
    simpa [isPlain, isQuote, imp_iff_not_or] using cuts
  rcases oneOf with rfl | rfl | rfl
  all_goals exact absurd blank (by decide)

/-- A character that cuts a literal is a bracket or a quote. -/
theorem eq_or_isQuote_of_not_isPlain {char : Char} (cuts : isPlain char = false) :
    char = '[' ∨ isQuote char := by
  simpa [isPlain, imp_iff_not_or] using cuts

/-! ## Segments -/

/-- The text in front of the first bracket, cut at the quotes. -/
def segments (chars : List Char) : List (List Char) :=
  (chars.takeWhile (· != '[')).splitOnP isQuote

theorem getElem?_everySecond {α : Type} (items : List α) (position : Nat) :
    (everySecond items)[position]? = items[2 * position]? := by
  fun_induction everySecond items generalizing position with
  | case1 => simp
  | case2 item => cases position with
    | zero => rfl
    | succ position => simp [Nat.mul_succ]
  | case3 item other rest ih => cases position with
    | zero => rfl
    | succ position => simpa [Nat.mul_succ] using ih position

/-- The quoted parts are every second segment. -/
theorem getElem?_quotedParts (chars : List Char) (position : Nat) :
    (quotedParts (chars.takeWhile (· != '[')))[position]? =
      (segments chars)[2 * position + 1]? := by
  rw [quotedParts, getElem?_everySecond, List.getElem?_drop, Nat.add_comm]
  rfl

/-- Characters that cut nothing are neither dropped nor quotes. -/
theorem takeWhile_append_of_plain {front : List Char} (plain : ∀ char ∈ front, isPlain char)
    (rest : List Char) :
    (front ++ rest).takeWhile (· != '[') = front ++ rest.takeWhile (· != '[') ∧
      ∀ char ∈ front, isQuote char = false := by
  have each : ∀ char ∈ front, char ≠ '[' ∧ isQuote char = false := fun char member => by
    simpa [isPlain] using plain char member
  exact ⟨List.takeWhile_append_of_pos fun char member => by simpa using (each char member).1,
    fun char member => (each char member).2⟩

/-- A quote ends a segment. -/
theorem segments_append_quote {front : List Char} (plain : ∀ char ∈ front, isPlain char)
    {quote : Char} (quotes : isQuote quote) (rest : List Char) :
    segments (front ++ quote :: rest) = front :: segments rest := by
  obtain ⟨same, solid⟩ := takeWhile_append_of_plain plain (quote :: rest)
  have notBracket : quote ≠ '[' := by
    rintro rfl
    cases quotes
  rw [segments, same, List.takeWhile_cons_of_pos (by simpa using notBracket),
    List.splitOnP_append_cons front _ quotes, List.splitOnP_eq_singleton solid]
  rfl

/-- A bracket ends the last segment. -/
theorem segments_append_bracket {front : List Char} (plain : ∀ char ∈ front, isPlain char)
    (rest : List Char) : segments (front ++ '[' :: rest) = [front] := by
  obtain ⟨same, solid⟩ := takeWhile_append_of_plain plain ('[' :: rest)
  rw [segments, same, List.takeWhile_cons_of_neg (by decide), List.append_nil,
    List.splitOnP_eq_singleton solid]

/-- A text in front of a quote ends its segment at its first character that cuts. -/
theorem segments_append_cons {quote : Char} (quotes : isQuote quote) (chars rest : List Char) :
    segments (chars ++ quote :: rest) = chars.takeWhile isPlain ::
      match chars.dropWhile isPlain with
      | [] => segments rest
      | '[' :: _ => []
      | _ :: more => segments (more ++ quote :: rest) := by
  have plain : ∀ char ∈ chars.takeWhile isPlain, isPlain char :=
    fun char member => List.mem_takeWhile_imp member
  have whole : segments (chars ++ quote :: rest) =
      segments (chars.takeWhile isPlain ++ (chars.dropWhile isPlain ++ quote :: rest)) := by
    rw [← List.append_assoc, List.takeWhile_append_dropWhile]
  rw [whole]
  split
  · rename_i left
    rw [left, List.nil_append, segments_append_quote plain quotes]
  · rename_i more left
    rw [left, List.cons_append, segments_append_bracket plain]
  · rename_i mark more other left
    have marks : isQuote mark :=
      (eq_or_isQuote_of_not_isPlain (eq_false_of_dropWhile_eq_cons left)).resolve_left other
    rw [left, List.cons_append, segments_append_quote plain marks]

theorem Literal.chars_append (literal : Literal) (rest : List Char) :
    literal.chars ++ rest = literal.quote :: (literal.content ++ literal.quote :: rest) := by
  rw [Literal.chars, List.cons_append, List.append_assoc, List.singleton_append]

theorem getElem?_zero_segments {quote : Char} (quotes : isQuote quote) (chars rest : List Char) :
    (segments (chars ++ quote :: rest))[0]? = some (chars.takeWhile isPlain) := by
  rw [segments_append_cons quotes]
  rfl

/-- Behind a public identifier the third segment is taken. -/
theorem getElem?_two_segments (external : ExternalId) (publicId : Literal) (gap : Gap)
    (rest : List Char) :
    (segments (publicId.content ++ publicId.quote :: (gap.chars ++
      (external.system.chars ++ rest))))[2]? = external.foundBehind publicId gap := by
  have blank : ∀ char ∈ gap.chars, isPlain char :=
    fun char member => isPlain_of_isBlank (gap.blank char member)
  have goesOn : segments (gap.chars ++ (external.system.chars ++ rest)) = gap.chars ::
      segments (external.system.content ++ external.system.quote :: rest) := by
    rw [Literal.chars_append, segments_append_quote blank external.system.quotes]
  rw [segments_append_cons publicId.quotes, List.getElem?_cons_succ, ExternalId.foundBehind]
  split
  · rw [goesOn, List.getElem?_cons_succ, getElem?_zero_segments external.system.quotes,
      Literal.found]
  · rfl
  · rename_i rest _ _
    rw [segments_append_cons publicId.quotes, List.getElem?_cons_succ]
    split
    · rw [goesOn, List.getElem?_cons_zero]
    · rfl
    · rw [getElem?_zero_segments publicId.quotes]

/-! ## The words of a declaration -/

/-- The first word of a text, with blank characters behind it. -/
theorem words_append_gap {word : List Char} (solid : ∀ char ∈ word, isBlank char = false)
    (notEmpty : word ≠ []) (gap : Gap) (rest : List Char) :
    words (word ++ (gap.chars ++ rest)) = word :: words rest := by
  obtain ⟨first, others, begins⟩ := List.exists_cons_of_ne_nil gap.notEmpty
  have blank := gap.blank
  rw [begins] at blank ⊢
  obtain ⟨blankFirst, blankOthers⟩ := List.forall_mem_cons.mp blank
  rw [List.cons_append, words_append_cons blankFirst, words_append_left blankOthers,
    words_of_solid solid notEmpty]
  rfl

theorem ExternalId.keyword_solid (external : ExternalId) :
    external.keyword ≠ [] ∧ ∀ char ∈ external.keyword, isBlank char = false ∧ isPlain char := by
  rw [ExternalId.keyword]
  split <;> decide

namespace DoctypeContent

variable {content : DoctypeContent} {external : ExternalId}

/-- What stands in front of the literals of an external identifier. -/
def heading (content : DoctypeContent) (external : ExternalId) : List Char :=
  content.front.chars ++ (content.name ++ (external.before.chars ++
    (external.keyword ++ external.behind.chars)))

theorem chars_eq_heading (has : content.external? = some external) :
    content.chars = content.heading external ++ (external.literals ++ content.rest) := by
  rw [chars, has, Option.elim_some, ExternalId.chars, heading]
  simp only [List.append_assoc]

theorem plain_heading : ∀ char ∈ content.heading external, isPlain char := by
  intro char member
  simp only [heading, List.mem_append] at member
  rcases member with inFront | inName | inGap | inKeyword | inGap
  · exact isPlain_of_isBlank (content.front.blank char inFront)
  · exact (content.nameChars char inName).2
  · exact isPlain_of_isBlank (external.before.blank char inGap)
  · exact (external.keyword_solid.2 char inKeyword).2
  · exact isPlain_of_isBlank (external.behind.blank char inGap)

theorem words_heading (rest : List Char) :
    words (content.heading external ++ rest) = content.name :: external.keyword :: words rest := by
  obtain ⟨notEmpty, solid⟩ := external.keyword_solid
  rw [heading]
  simp only [List.append_assoc]
  rw [words_append_left content.front.blank,
    words_append_gap (fun char member => (content.nameChars char member).1) content.named,
    words_append_gap (fun char member => (solid char member).1) notEmpty]

/-- What stands in front of the first bracket behind a name is blank. -/
theorem blank_takeWhile_rest :
    ∀ char ∈ content.rest.takeWhile (· != '['), isBlank char := by
  intro char member
  have noBracket : char ≠ '[' := by simpa using List.mem_takeWhile_imp member
  cases has : content.subset? with
  | none =>
    have inside := (List.takeWhile_sublist _).subset member
    rw [rest, has, Option.elim_none, List.nil_append, List.mem_append] at inside
    exact inside.elim (content.gap.blank char) (content.back.blank char)
  | some subset =>
    have plain : ∀ char ∈ content.gap.chars, isPlain char :=
      fun char member => isPlain_of_isBlank (content.gap.blank char member)
    rw [rest, has, Option.elim_some, (takeWhile_append_of_plain plain _).1, List.cons_append,
      List.takeWhile_cons_of_neg (by decide), List.append_nil] at member
    exact content.gap.blank char member

/-- A name alone identifies nothing. -/
theorem systemIdChars?_chars_eq_none (has : content.external? = none) :
    systemIdChars? content.chars = none := by
  have plainFront : ∀ char ∈ content.front.chars, isPlain char :=
    fun char member => isPlain_of_isBlank (content.front.blank char member)
  have plainName : ∀ char ∈ content.name, isPlain char :=
    fun char member => (content.nameChars char member).2
  have single : words (content.chars.takeWhile (· != '[')) = [content.name] := by
    rw [chars, has, Option.elim_none, List.nil_append, (takeWhile_append_of_plain plainFront _).1,
      (takeWhile_append_of_plain plainName _).1, words_append_left content.front.blank,
      words_append_right blank_takeWhile_rest,
      words_of_solid (fun char member => (content.nameChars char member).1) content.named]
  simp only [systemIdChars?, single]

/-- Behind the keyword of an external identifier its literals are looked for. -/
theorem systemIdChars?_chars (has : content.external? = some external) :
    systemIdChars? content.chars = external.found? := by
  have external? : words (content.chars.takeWhile (· != '[')) = content.name :: external.keyword ::
      words ((external.literals ++ content.rest).takeWhile (· != '[')) := by
    rw [chars_eq_heading has, (takeWhile_append_of_plain plain_heading _).1, words_heading]
  simp only [systemIdChars?, external?]
  simp only [getElem?_quotedParts]
  rw [chars_eq_heading has, ExternalId.keyword, ExternalId.found?, ExternalId.literals]
  cases external.public? with
  | none =>
    rw [if_pos rfl, Literal.chars_append,
      segments_append_quote plain_heading external.system.quotes]
    exact getElem?_zero_segments external.system.quotes _ _
  | some entry =>
    obtain ⟨publicId, gap⟩ := entry
    have other : "PUBLIC".toList ≠ "SYSTEM".toList := by decide
    dsimp only
    rw [if_neg other, if_pos rfl, List.append_assoc, Literal.chars_append, List.append_assoc,
      segments_append_quote plain_heading publicId.quotes]
    exact getElem?_two_segments external publicId gap _

end DoctypeContent

theorem Literal.found_eq_content_iff {literal : Literal} :
    literal.found = literal.content ↔ literal.IsPlain :=
  List.takeWhile_eq_self_iff

/-- What is found behind a public identifier that nothing cuts. -/
theorem ExternalId.found?_of_isPlain {external : ExternalId}
    (plain : ∀ entry ∈ external.public?, entry.1.IsPlain) :
    external.found? = some external.system.found := by
  rw [ExternalId.found?]
  split
  · rfl
  · rename_i publicId gap has
    have whole : publicId.content.dropWhile isPlain = [] :=
      List.dropWhile_eq_nil_iff.mpr (plain (publicId, gap) has)
    rw [ExternalId.foundBehind, whole]

/-- Nothing is found where a declaration consists of a name. In an external identifier something is
found by what cuts the literals. Unless something cuts the public identifier, it is the system
identifier exactly if nothing cuts that. -/
theorem systemId?_content (content : DoctypeContent) :
    (content.external? = none → systemId? (String.ofList content.chars) = none) ∧
      ∀ external, content.external? = some external →
        systemId? (String.ofList content.chars) = external.found?.map String.ofList ∧
          ((∀ entry ∈ external.public?, entry.1.IsPlain) →
            (systemId? (String.ofList content.chars) =
              some (String.ofList external.system.content) ↔ external.system.IsPlain)) := by
  constructor
  · intro has
    rw [systemId?, String.toList_ofList, content.systemIdChars?_chars_eq_none has, Option.map_none]
  · intro external has
    have result : systemId? (String.ofList content.chars) =
        external.found?.map String.ofList := by
      rw [systemId?, String.toList_ofList, content.systemIdChars?_chars has]
    refine ⟨result, fun plain => ?_⟩
    rw [result, ExternalId.found?_of_isPlain plain, Option.map_some, Option.some_inj,
      String.ofList_inj, Literal.found_eq_content_iff]

/-! ## Declarations with and without characters that cut -/

/-- A single space. -/
def space : Gap where
  chars := [' ']
  blank := by decide
  notEmpty := by decide

/-- No blank characters. -/
def noPadding : Padding where
  chars := []
  blank := by decide

/-- The content of a declaration of graph documents. -/
def graphDoctype (external? : Option ExternalId) (subset? : Option (List Char)) :
    DoctypeContent where
  front := noPadding
  name := "graphml".toList
  named := by decide
  nameChars := by decide
  external? := external?
  gap := noPadding
  subset? := subset?
  back := noPadding

/-- A public and a system identifier that nothing cuts. -/
def publicExternalId : ExternalId where
  before := space
  behind := space
  public? := some (⟨'"', "-//GraphML//DTD".toList, by decide, by decide⟩, space)
  system := ⟨'\'', "graphml.dtd".toList, by decide, by decide⟩

/-- A system identifier in double quotes with a single quote in it. -/
def cutExternalId : ExternalId where
  before := space
  behind := space
  public? := none
  system := ⟨'"', "it's.dtd".toList, by decide, by decide⟩

/-- What stands in the internal subset does no harm, and neither do quotes of both kinds. -/
theorem systemId?_publicExternalId :
    (graphDoctype (some publicExternalId) (some "<!ATTLIST a b 'c'>".toList)).chars =
        "graphml PUBLIC \"-//GraphML//DTD\" 'graphml.dtd'[<!ATTLIST a b 'c'>]".toList ∧
      (∀ entry ∈ publicExternalId.public?, entry.1.IsPlain) ∧ publicExternalId.system.IsPlain ∧
      systemId? (String.ofList
        (graphDoctype (some publicExternalId) (some "<!ATTLIST a b 'c'>".toList)).chars) =
          some "graphml.dtd" := by
  have plainPublic : ∀ entry ∈ publicExternalId.public?, entry.1.IsPlain := by
    rintro entry ⟨⟩
    exact (by decide : ∀ char ∈ "-//GraphML//DTD".toList, isPlain char)
  have plainSystem : publicExternalId.system.IsPlain :=
    (by decide : ∀ char ∈ "graphml.dtd".toList, isPlain char)
  have found := ((systemId?_content (graphDoctype (some publicExternalId)
    (some "<!ATTLIST a b 'c'>".toList))).2 publicExternalId rfl).2 plainPublic
  exact ⟨by decide, plainPublic, plainSystem, found.mpr plainSystem⟩

/-- A document with that declaration. -/
def cutDocument : Bytes :=
  ["<!DOCTYPE ", "graphml SYSTEM \"it's.dtd\"", "><graphml xmlns=\"",
    "http://graphml.", "graphdrawing.org/xmlns", "\"/>"].flatMap bytesOf

/-- A single quote cuts the system identifier, and the definition that is looked for is not the one
that the document names. -/
theorem validate_cutDocument :
    (graphDoctype (some cutExternalId) none).chars = "graphml SYSTEM \"it's.dtd\"".toList ∧
      systemId? (String.ofList (graphDoctype (some cutExternalId) none).chars) ≠
        some (String.ofList cutExternalId.system.content) ∧
      validate Resolver.embedded {} graphSchema cutDocument =
        .error (.validation (.violation (.unresolvedDoctype "it") 0)) := by
  refine ⟨by decide, by decide, ?_⟩
  decide +kernel

end GraphMarkup.Validation
