import GraphMarkup.Proofs.Markup.TagContent
import GraphMarkup.Proofs.Text.Words

/-!
# Scanning single pieces of markup

A piece of markup is scanned up to the first place where it can end, and what stands behind it
is left alone. This holds of every kind of markup, whatever is inside.
-/

namespace GraphMarkup.Markup

open GraphMarkup.Text

/-- What stands behind a bracket is scanned as an event, whatever comes after it. -/
def Spells (opened : List Bytes) (markup : Bytes) (event : Event) : Prop :=
  ∀ rest, ∃ size, scanMarkup opened (markup ++ rest) = ⟨.ok event, size, rest⟩

/-! ## Tags -/

/-- A tag as it can stand in a document: it begins with a name, and brackets in it stand in
quotes. -/
structure Tag.IsSpelled (tag : Tag) : Prop where
  named : IsSolid tag.name
  enclosed : Enclosed none tag.content

instance (tag : Tag) : Decidable tag.IsSpelled :=
  decidable_of_iff (IsSolid tag.name ∧ Enclosed none tag.content)
    ⟨fun ⟨named, enclosed⟩ => ⟨named, enclosed⟩, fun ⟨named, enclosed⟩ => ⟨named, enclosed⟩⟩

theorem Scannable.isSpelled {name : Bytes} {attributes : List Attribute}
    (scannable : Scannable name attributes) :
    (Tag.mk (tagContent name attributes)).IsSpelled := by
  constructor
  · rw [scannable.name_tag.1]
    exact scannable.named
  · exact scannable.enclosed

namespace Tag.IsSpelled

variable {tag : Tag}

/-- What begins with a tag is no other markup. -/
theorem scanMarkup_eq_scanTag (spelled : tag.IsSpelled) (opened : List Bytes) (rest : Bytes) :
    scanMarkup opened (tag.content ++ rest) = scanTag (tag.content ++ rest) := by
  obtain ⟨first, more, same⟩ := List.exists_cons_of_ne_nil spelled.named.nonempty
  have split : tag.content = first :: (more ++ tag.content.dropWhile (!isSpace ·)) := by
    have whole : tag.name ++ tag.content.dropWhile (!isSpace ·) = tag.content :=
      List.takeWhile_append_dropWhile
    rw [same] at whole
    exact whole.symm
  have unmarked : ∀ mark ∈ tagMarks, ¬(first == byteOf mark) = true := by
    intro mark member
    rw [beq_iff_eq]
    apply spelled.named.unmarked first _ mark member
    rw [same]
    exact List.mem_cons_self
  rw [split, List.cons_append, scanMarkup.eq_def]
  dsimp only
  rw [if_neg (unmarked '!' (by decide)), if_neg (unmarked '/' (by decide)),
    if_neg (unmarked '?' (by decide))]

/-- A start tag is scanned up to its bracket. -/
theorem spells_opening (spelled : tag.IsSpelled)
    (unslashed : tag.content.getLast? ≠ some (byteOf '/')) (opened : List Bytes) :
    Spells opened (tag.content ++ [byteOf '>']) (.opening tag) := by
  intro rest
  have cut : cutTag? none (tag.content ++ ([byteOf '>'] ++ rest)) =
      some (tag.content ++ [], rest) :=
    cutTag?_of_enclosed spelled.enclosed rfl
  refine ⟨tag.content.length + 1, ?_⟩
  rw [List.append_assoc, spelled.scanMarkup_eq_scanTag, scanTag, cut, List.append_nil]
  dsimp only
  rw [if_neg unslashed]
  rfl

/-- The tag of an empty element is scanned up to its bracket. -/
theorem spells_empty (spelled : tag.IsSpelled) (opened : List Bytes) :
    Spells opened (tag.content ++ [byteOf '/', byteOf '>']) (.empty tag) := by
  intro rest
  have cut : cutTag? none (tag.content ++ ([byteOf '/', byteOf '>'] ++ rest)) =
      some (tag.content ++ [byteOf '/'], rest) :=
    cutTag?_of_enclosed spelled.enclosed rfl
  refine ⟨(tag.content ++ [byteOf '/']).length + 1, ?_⟩
  rw [List.append_assoc, spelled.scanMarkup_eq_scanTag, scanTag, cut]
  dsimp only
  rw [if_pos List.getLast?_concat, List.dropLast_concat]
  rfl

end Tag.IsSpelled

/-- The name in an end tag is read without the spaces behind it. -/
theorem closingName_append {name gap : Bytes} (solid : IsSolid name)
    (blank : ∀ byte ∈ gap, isSpace byte) : closingName (name ++ gap) = name := by
  have kept : dropRightWhile isSpace (name ++ gap) = name := by
    have spaces : ∀ byte ∈ gap.reverse, isSpace byte :=
      fun byte member => blank byte (List.mem_reverse.mp member)
    rw [dropRightWhile, List.reverse_append, List.dropWhile_append_of_pos spaces]
    obtain ⟨front, last, same⟩ := name.eq_nil_or_concat.resolve_left solid.nonempty
    have notSpace : isSpace last = false := by
      apply solid.isSpace_eq_false
      rw [same, List.concat_eq_append]
      exact List.mem_concat_self
    rw [same, List.concat_eq_append, List.reverse_append, List.reverse_singleton,
      List.singleton_append, List.dropWhile_cons_of_neg (by simp [notSpace]), List.reverse_cons,
      List.reverse_reverse]
  rw [closingName, kept]
  split
  · exact absurd rfl solid.nonempty
  · rfl

/-- The end tag of the innermost open element is scanned. -/
theorem spells_closing {name gap : Bytes} (solid : IsSolid name)
    (blank : ∀ byte ∈ gap, isSpace byte) (opened : List Bytes) :
    Spells (name :: opened) (byteOf '/' :: (name ++ gap ++ [byteOf '>'])) (.closing name) := by
  intro rest
  have bare : ∀ byte ∈ gap, byte ≠ byteOf '>' ∧ byte ≠ byteOf '"' ∧ byte ≠ byteOf '\'' := by
    intro byte member
    have space := blank byte member
    refine ⟨?_, ?_, ?_⟩ <;>
    · rintro rfl
      cases space
  have enclosed : Enclosed none (name ++ gap) := by
    rw [← List.append_nil gap]
    exact enclosed_append solid.ne_marks (enclosed_append bare rfl)
  have cut : cutTag? none (name ++ gap ++ [byteOf '>'] ++ rest) =
      some (name ++ gap ++ [], rest) := by
    rw [List.append_assoc]
    exact cutTag?_of_enclosed enclosed rfl
  refine ⟨(name ++ gap).length + 1 + 1, ?_⟩
  rw [List.cons_append, scanMarkup.eq_def]
  dsimp only
  rw [if_neg (by decide), if_pos (by decide), scanClosing, cut, List.append_nil]
  dsimp only
  rw [closingName_append solid blank, if_pos rfl]
  rfl

/-! ## Literal text, comments and instructions -/

/-- Where a pattern stands whose last byte is nowhere else in it, no other occurrence begins in
front of it and ends in it. -/
theorem dropPrefix?_of_absent {start front : Bytes} {byte last : UInt8} (other : last ∉ start)
    (absent : ¬start ++ [last] <+: byte :: front) (rest : Bytes) :
    dropPrefix? (start ++ [last]) (byte :: (front ++ (start ++ last :: rest))) = none := by
  rw [Option.eq_none_iff_forall_ne_some]
  intro behind found
  have same : (byte :: front) ++ (start ++ last :: rest) = start ++ [last] ++ behind :=
    dropPrefix?_eq_some_iff.mp found
  rcases List.append_eq_append_iff.mp same with
    ⟨overlap, within, behindIs⟩ | ⟨surplus, frontIs, -⟩
  · rcases overlap.eq_nil_or_concat with rfl | ⟨overlap, final, rfl⟩
    · exact absent ⟨[], by rw [List.append_nil, within, List.append_nil]⟩
    · rw [List.concat_eq_append, ← List.append_assoc] at within
      obtain ⟨startIs, lastIs⟩ := List.append_inj' within rfl
      cases lastIs
      -- The last byte of the pattern would stand where the pattern in the text still goes on.
      rw [List.concat_eq_append, List.append_assoc, List.singleton_append] at behindIs
      rcases List.append_eq_append_iff.mp behindIs with
        ⟨more, longer, -⟩ | ⟨more, startsWith, restIs⟩
      · have lengths := congrArg List.length startIs
        have longer := congrArg List.length longer
        simp only [List.length_append, List.length_cons] at lengths longer
        omega
      · cases more with
        | nil =>
          have lengths := congrArg List.length startIs
          have shorter := congrArg List.length startsWith
          simp only [List.length_append, List.length_cons, List.length_nil] at lengths shorter
          omega
        | cons first more =>
          cases restIs
          apply other
          rw [startsWith]
          exact List.mem_append_right _ List.mem_cons_self
  · exact absent ⟨surplus, frontIs.symm⟩

/-- A cut is made at the first occurrence. Of a pattern whose last byte stands nowhere else in
it, none begins in the front and ends behind it. -/
theorem cutAt?_of_absent (start : Bytes) (last : UInt8) {front : Bytes} (other : last ∉ start)
    (inner : ¬start ++ [last] <:+: front) (rest : Bytes) :
    cutAt? (start ++ [last]) (front ++ (start ++ [last]) ++ rest) = some (front, rest) := by
  rw [List.append_assoc, List.append_assoc, List.singleton_append]
  induction front with
  | nil =>
    have found : dropPrefix? (start ++ [last]) (start ++ last :: rest) = some rest :=
      dropPrefix?_eq_some_iff.mpr (List.append_cons start last rest)
    rw [List.nil_append]
    obtain ⟨first, more, same⟩ := List.exists_cons_of_ne_nil
      (List.append_ne_nil_of_right_ne_nil start (List.cons_ne_nil last rest))
    rw [same] at found ⊢
    rw [cutAt?, found]
  | cons byte front ih =>
    rw [List.infix_cons_iff, not_or] at inner
    rw [List.cons_append, cutAt?, dropPrefix?_of_absent other inner.1]
    dsimp only
    rw [ih inner.2]
    rfl

/-- Literal text is scanned up to its end. -/
theorem spells_cdata {content : Bytes} (unended : ¬bytesOf "]]>" <:+: content)
    (opened : List Bytes) :
    Spells opened (bytesOf "![CDATA[" ++ content ++ bytesOf "]]>") (.cdata content) := by
  intro rest
  have mark : bytesOf "]]>" = [byteOf ']', byteOf ']'] ++ [byteOf '>'] := rfl
  have inner : ¬bytesOf "]]>" <:+: bytesOf "[CDATA[" ++ content := by
    have front : bytesOf "[CDATA[" = [byteOf '[', byteOf 'C', byteOf 'D', byteOf 'A', byteOf 'T',
      byteOf 'A', byteOf '['] := rfl
    have apart : ∀ byte ∈ bytesOf "[CDATA[", byteOf ']' ≠ byte := by
      decide +kernel
    rw [mark] at unended ⊢
    rw [front] at apart ⊢
    simp only [List.forall_mem_cons] at apart
    simp only [List.cons_append, List.nil_append, List.infix_cons_iff, List.cons_prefix_cons,
      apart, false_and, false_or]
    exact unended
  have cut : cutAt? (bytesOf "]]>") (bytesOf "[CDATA[" ++ content ++ bytesOf "]]>" ++ rest) =
      some (bytesOf "[CDATA[" ++ content, rest) :=
    cutAt?_of_absent [byteOf ']', byteOf ']'] (byteOf '>') (by decide) inner rest
  have literal : dropPrefix? (bytesOf "[CDATA[") (bytesOf "[CDATA[" ++ content) = some content :=
    dropPrefix?_eq_some_iff.mpr rfl
  refine ⟨(bytesOf "[CDATA[" ++ content).length + 3 + 1, ?_⟩
  change Scanned.behind 1 (scanCData (bytesOf "[CDATA[" ++ content ++ bytesOf "]]>" ++ rest)) = _
  rw [scanCData, cut]
  dsimp only
  rw [literal]
  rfl

/-- A comment is scanned up to its end. -/
theorem spells_comment {content : Bytes} (unended : ¬bytesOf "-->" <:+: content)
    (opened : List Bytes) :
    Spells opened (bytesOf "!--" ++ content ++ bytesOf "-->") (.comment content) := by
  intro rest
  have cut : cutAt? (bytesOf "-->") (content ++ bytesOf "-->" ++ rest) = some (content, rest) :=
    cutAt?_of_absent [byteOf '-', byteOf '-'] (byteOf '>') (by decide) unended rest
  have dashes : (bytesOf "--").length = 2 := rfl
  refine ⟨content.length + 5 + 1, ?_⟩
  change Scanned.behind 1 (scanComment (bytesOf "--" ++ (content ++ bytesOf "-->" ++ rest))) = _
  rw [scanComment, ← dashes, List.drop_left, List.take_left, cut]
  dsimp only
  rw [if_pos rfl]
  rfl

/-- An instruction is scanned up to its end. -/
theorem spells_instruction {content : Bytes}
    (unended : ¬bytesOf "?>" <:+: byteOf '?' :: content) (opened : List Bytes) :
    Spells opened (byteOf '?' :: (content ++ bytesOf "?>")) (.instruction content) := by
  intro rest
  have cut : cutAt? (bytesOf "?>") (byteOf '?' :: (content ++ bytesOf "?>" ++ rest)) =
      some (byteOf '?' :: content, rest) :=
    cutAt?_of_absent [byteOf '?'] (byteOf '>') (by decide) unended rest
  refine ⟨content.length + 3, ?_⟩
  rw [List.cons_append, scanMarkup.eq_def]
  dsimp only
  rw [if_neg (by decide), if_neg (by decide), if_pos (by decide), scanInstruction, cut]
  rfl

/-! ## Document types -/

/-- Every bracket is closed again. In front of the bytes `depth` brackets are open. -/
def Bracketed (depth : Nat) : Bytes → Prop
  | [] => depth = 0
  | byte :: rest =>
      if byte = byteOf '<' then Bracketed (depth + 1) rest
      else if byte = byteOf '>' then depth ≠ 0 ∧ Bracketed (depth - 1) rest
      else Bracketed depth rest

def decidableBracketed : (depth : Nat) → (bytes : Bytes) → Decidable (Bracketed depth bytes)
  | depth, [] => inferInstanceAs (Decidable (depth = 0))
  | depth, byte :: rest =>
      haveI := fun depth => decidableBracketed depth rest
      inferInstanceAs (Decidable
        (if byte = byteOf '<' then Bracketed (depth + 1) rest
        else if byte = byteOf '>' then depth ≠ 0 ∧ Bracketed (depth - 1) rest
        else Bracketed depth rest))

instance (depth : Nat) (bytes : Bytes) : Decidable (Bracketed depth bytes) :=
  decidableBracketed depth bytes

/-- Closed brackets belong to the document type. -/
theorem cutDoctype?_of_bracketed {depth : Nat} {front : Bytes} (bracketed : Bracketed depth front)
    (rest : Bytes) :
    cutDoctype? depth (front ++ byteOf '>' :: rest) = some (front, rest) := by
  induction front generalizing depth with
  | nil =>
    cases bracketed
    rfl
  | cons byte front ih =>
    rw [Bracketed] at bracketed
    rw [List.cons_append, cutDoctype?]
    by_cases opens : byte = byteOf '<'
    · subst opens
      have apart : (byteOf '<' == byteOf '>') = false := rfl
      rw [if_pos rfl] at bracketed
      rw [apart, Bool.false_and, if_neg Bool.false_ne_true, if_pos BEq.rfl]
      dsimp only
      rw [ih bracketed]
      rfl
    rw [if_neg opens] at bracketed
    have notOpen : ¬(byte == byteOf '<') = true := fun same => opens (beq_iff_eq.mp same)
    by_cases closes : byte = byteOf '>'
    · subst closes
      rw [if_pos rfl] at bracketed
      rw [if_neg (by simp [bracketed.1]), if_neg notOpen, if_pos BEq.rfl]
      dsimp only
      rw [ih bracketed.2]
      rfl
    · rw [if_neg closes] at bracketed
      simp [ih bracketed, opens, closes]

/-- A document type is scanned up to its bracket. What it declares has to follow the word. -/
theorem spells_doctype {word content : Bytes} (matching : matchesWord "doctype" word)
    (some : content.dropWhile isSpace ≠ []) (bracketed : Bracketed 0 (word ++ content))
    (opened : List Bytes) :
    Spells opened (byteOf '!' :: (word ++ content ++ [byteOf '>']))
      (.doctype (content.dropWhile isSpace)) := by
  intro rest
  have length : word.length = 7 := by
    have mapped := congrArg List.length (beq_iff_eq.mp matching)
    rwa [List.length_map] at mapped
  have cut : cutDoctype? 0 (word ++ content ++ [byteOf '>'] ++ rest) =
      Option.some (word ++ content, rest) := by
    rw [List.append_assoc]
    exact cutDoctype?_of_bracketed bracketed rest
  have scanned : scanDoctype (word ++ content ++ [byteOf '>'] ++ rest) =
      ⟨.ok (.doctype (content.dropWhile isSpace)), (word ++ content).length + 1, rest⟩ := by
    rw [scanDoctype, cut]
    dsimp only
    rw [← length, List.take_left, List.drop_left, if_pos matching]
    split
    · contradiction
    · rfl
  have lowered : ∀ code : Fin 256, (Char.ofNat code.val).toLower = 'd' →
      code.val = (byteOf 'D').toNat ∨ code.val = (byteOf 'd').toNat := by
    decide +kernel
  refine ⟨(word ++ content).length + 1 + 1, ?_⟩
  cases word with
  | nil => cases length
  | cons first more =>
    have lower := lowered ⟨first.toNat, first.toNat_lt⟩
      (List.cons.inj (beq_iff_eq.mp matching)).1
    have begins : (first == byteOf 'D' || first == byteOf 'd') = true := by
      rw [Bool.or_eq_true, beq_iff_eq, beq_iff_eq]
      exact lower.imp UInt8.toNat_inj.mp UInt8.toNat_inj.mp
    have noLiteral : ¬(first == byteOf '[') = true := by
      rintro same
      rw [beq_iff_eq.mp same] at begins
      exact absurd begins (by decide)
    have noComment : ¬(first == byteOf '-') = true := by
      rintro same
      rw [beq_iff_eq.mp same] at begins
      exact absurd begins (by decide)
    rw [List.cons_append, scanMarkup.eq_def]
    dsimp only
    rw [if_pos (by decide)]
    simp only [List.cons_append] at scanned ⊢
    rw [if_neg noLiteral, if_neg noComment, if_pos begins, scanned]
    rfl

/-! ## Character data -/

/-- An input is used up or goes on with markup. -/
def BeginsMarkup (input : Bytes) : Prop :=
  ∀ byte ∈ input.head?, byte = byteOf '<'

theorem beginsMarkup_nil : BeginsMarkup [] := by
  rintro byte ⟨⟩

theorem beginsMarkup_cons (rest : Bytes) : BeginsMarkup (byteOf '<' :: rest) := by
  rintro byte ⟨⟩
  rfl

/-- Character data is scanned up to the next bracket. -/
theorem scanFrom_text {raw rest : Bytes} (some : raw ≠ []) (noBracket : byteOf '<' ∉ raw)
    (markup : BeginsMarkup rest) (start : Nat) (opened : List Bytes) :
    scanFrom start opened (raw ++ rest) =
      .item (.text raw) start (scanFrom (start + raw.length) opened rest) := by
  obtain ⟨first, more, rfl⟩ := List.exists_cons_of_ne_nil some
  rw [List.mem_cons, not_or] at noBracket
  have other : ¬(first == byteOf '<') = true := by
    rw [beq_iff_eq]
    exact fun bracket => noBracket.1 bracket.symm
  have inner : ∀ byte ∈ more, (byte != byteOf '<') = true := by
    intro byte member
    rw [bne_iff_ne]
    rintro rfl
    exact noBracket.2 member
  have ends : rest.takeWhile (· != byteOf '<') = [] ∧ rest.dropWhile (· != byteOf '<') = rest := by
    cases rest with
    | nil => exact ⟨rfl, rfl⟩
    | cons byte rest =>
      rw [markup byte rfl]
      exact ⟨rfl, rfl⟩
  rw [List.cons_append, scanFrom, if_neg other, List.takeWhile_append_of_pos inner,
    List.dropWhile_append_of_pos inner, ends.1, ends.2, List.append_nil]

/-- A bracket is scanned with the markup behind it, and scanning goes on behind that. -/
theorem scanFrom_markup {opened : List Bytes} {markup : Bytes} {event : Event}
    (spells : Spells opened markup event) (start : Nat) (rest : Bytes) :
    scanFrom start opened (byteOf '<' :: (markup ++ rest)) =
      .item event start
        (scanFrom (start + (markup.length + 1)) (openedAfter opened event) rest) := by
  obtain ⟨size, scanned⟩ := spells rest
  have exhausts := scanMarkup_exhausts opened (markup ++ rest)
  have length : start + 1 + size = start + (markup.length + 1) := by
    rw [scanned, Scanned.Exhausts, List.length_append] at exhausts
    dsimp only at exhausts
    omega
  rw [scanFrom, if_pos (beq_self_eq_true _), ← length]
  split
  · rename_i failed
    cases scanned.symm.trans failed
  · rename_i found
    cases scanned.symm.trans found
    rfl

end GraphMarkup.Markup
