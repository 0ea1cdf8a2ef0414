import GraphMarkup.Markup.Scanner
import GraphMarkup.Proofs.Markup.AttributeScan
import Mathlib.Data.List.TakeWhile

/-!
# Scanning the content of a tag

The content of a tag is a name and attributes in quotes. A tag ends at the first closing bracket
that is not in quotes. Its name and attributes are found as they were put together, whatever the
values are made of, if the name and the keys hold none of the bytes that mean something in a tag.
-/

namespace GraphMarkup.Markup

open GraphMarkup.Text

/-- The characters that mean something in a tag. -/
def tagMarks : List Char :=
  [' ', '\t', '\n', '\r', '<', '>', '/', '=', '"', '\'', '!', '?']

/-- Bytes that can be a name in a tag: there are some, and none of them means something. -/
structure IsSolid (bytes : Bytes) : Prop where
  nonempty : bytes ≠ []
  unmarked : ∀ byte ∈ bytes, ∀ mark ∈ tagMarks, byte ≠ byteOf mark

instance (bytes : Bytes) : Decidable (IsSolid bytes) :=
  haveI (byte : UInt8) : Decidable (∀ mark ∈ tagMarks, byte ≠ byteOf mark) :=
    List.decidableBAll _ tagMarks
  haveI : Decidable (∀ byte ∈ bytes, ∀ mark ∈ tagMarks, byte ≠ byteOf mark) :=
    List.decidableBAll _ bytes
  decidable_of_iff (bytes ≠ [] ∧ ∀ byte ∈ bytes, ∀ mark ∈ tagMarks, byte ≠ byteOf mark)
    ⟨fun ⟨nonempty, unmarked⟩ => ⟨nonempty, unmarked⟩,
    fun ⟨nonempty, unmarked⟩ => ⟨nonempty, unmarked⟩⟩

/-- An attribute as it is spelled in a tag. -/
def Attribute.spelling (entry : Attribute) : Bytes :=
  byteOf ' ' ::
    (entry.key ++ byteOf '=' :: byteOf '"' :: (entry.value ++ [byteOf '"']))

/-- The content of a tag. -/
def tagContent (name : Bytes) (attributes : List Attribute) : Bytes :=
  name ++ attributes.flatMap Attribute.spelling

/-- The parts of a tag that can be told apart: names are solid, values hold no quotes, and no
two keys are the same. -/
structure Scannable (name : Bytes) (attributes : List Attribute) : Prop where
  named : IsSolid name
  keyed : ∀ entry ∈ attributes, IsSolid entry.key
  quoted : ∀ entry ∈ attributes, byteOf '"' ∉ entry.value
  distinct : (attributes.map Attribute.key).Nodup

namespace IsSolid

variable {bytes : Bytes}

theorem ne_marks (solid : IsSolid bytes) :
    ∀ byte ∈ bytes, byte ≠ byteOf '>' ∧ byte ≠ byteOf '"' ∧ byte ≠ byteOf '\'' := by
  intro byte member
  have unmarked := solid.unmarked byte member
  exact ⟨unmarked _ (by decide), unmarked _ (by decide), unmarked _ (by decide)⟩

theorem isSpace_eq_false (solid : IsSolid bytes) {byte : UInt8} (member : byte ∈ bytes) :
    isSpace byte = false := by
  have unmarked := solid.unmarked byte member
  have space : byte ≠ 0x20 := unmarked ' ' (by decide)
  have tab : byte ≠ 0x09 := unmarked '\t' (by decide)
  have feed : byte ≠ 0x0A := unmarked '\n' (by decide)
  have carriage : byte ≠ 0x0D := unmarked '\r' (by decide)
  simp [isSpace, space, tab, feed, carriage]

theorem endsKey_eq_false (solid : IsSolid bytes) {byte : UInt8} (member : byte ∈ bytes) :
    endsKey byte = false := by
  have equals : byte ≠ byteOf '=' := solid.unmarked byte member '=' (by decide)
  simp [endsKey, equals, solid.isSpace_eq_false member]

/-- Bytes that can be a name are taken as one. -/
theorem takeWhile_append (solid : IsSolid bytes) {rest : Bytes}
    (spaced : ∀ byte ∈ rest.head?, isSpace byte) :
    (bytes ++ rest).takeWhile (!isSpace ·) = bytes ∧
      (bytes ++ rest).dropWhile (!isSpace ·) = rest := by
  have inner : ∀ byte ∈ bytes, (!isSpace byte) = true := by
    intro byte member
    rw [solid.isSpace_eq_false member]
    rfl
  rw [List.takeWhile_append_of_pos inner, List.dropWhile_append_of_pos inner]
  cases rest with
  | nil => exact ⟨List.append_nil _, rfl⟩
  | cons byte rest =>
    have blank := spaced byte rfl
    simp [blank]

end IsSolid

/-! ## Where a tag ends -/

/-- Closing brackets stand in quotes only, and every quote is closed. In front of the bytes the
given quote is open. -/
def Enclosed (quote? : Option UInt8) : Bytes → Prop
  | [] => quote? = none
  | byte :: rest =>
      match quote? with
      | none =>
          byte ≠ byteOf '>' ∧
            Enclosed (if byte = byteOf '"' ∨ byte = byteOf '\'' then some byte else none) rest
      | some quote => Enclosed (if byte = quote then none else some quote) rest

def decidableEnclosed :
    (quote? : Option UInt8) → (bytes : Bytes) → Decidable (Enclosed quote? bytes)
  | quote?, [] => inferInstanceAs (Decidable (quote? = none))
  | none, byte :: rest =>
      haveI := fun quote? => decidableEnclosed quote? rest
      inferInstanceAs (Decidable (byte ≠ byteOf '>' ∧
        Enclosed (if byte = byteOf '"' ∨ byte = byteOf '\'' then some byte else none) rest))
  | some quote, byte :: rest =>
      decidableEnclosed (if byte = quote then none else some quote) rest

instance (quote? : Option UInt8) (bytes : Bytes) : Decidable (Enclosed quote? bytes) :=
  decidableEnclosed quote? bytes

/-- What is enclosed belongs to the tag. -/
theorem cutTag?_of_enclosed {quote? : Option UInt8} {front rest content rest' : Bytes}
    (enclosed : Enclosed quote? front) (cut : cutTag? none rest = some (content, rest')) :
    cutTag? quote? (front ++ rest) = some (front ++ content, rest') := by
  induction front generalizing quote? with
  | nil =>
    cases enclosed
    exact cut
  | cons byte front ih =>
    cases quote? with
    | none =>
      obtain ⟨noBracket, enclosed⟩ := enclosed
      rw [List.cons_append, cutTag?, if_neg (by simpa using noBracket)]
      simp only [Bool.or_eq_true, beq_iff_eq, ih enclosed]
      rfl
    | some quote =>
      rw [List.cons_append, cutTag?]
      simp only [beq_iff_eq, ih enclosed]
      rfl

/-- Bytes that are neither brackets nor quotes may stand anywhere. -/
theorem enclosed_append {front rest : Bytes}
    (inner : ∀ byte ∈ front, byte ≠ byteOf '>' ∧ byte ≠ byteOf '"' ∧ byte ≠ byteOf '\'')
    (enclosed : Enclosed none rest) : Enclosed none (front ++ rest) := by
  induction front with
  | nil => exact enclosed
  | cons byte front ih =>
    obtain ⟨⟨noBracket, noQuote, noApostrophe⟩, inner⟩ := List.forall_mem_cons.mp inner
    refine ⟨noBracket, ?_⟩
    rw [if_neg (not_or.mpr ⟨noQuote, noApostrophe⟩)]
    exact ih inner

/-- Whatever stands in quotes is enclosed. -/
theorem enclosed_quoted {value rest : Bytes} (inner : byteOf '"' ∉ value)
    (enclosed : Enclosed none rest) :
    Enclosed none (byteOf '"' :: (value ++ byteOf '"' :: rest)) := by
  refine ⟨by decide, ?_⟩
  rw [if_pos (Or.inl rfl)]
  induction value with
  | nil => exact enclosed
  | cons byte value ih =>
    rw [List.mem_cons, not_or] at inner
    change Enclosed (if byte = byteOf '"' then none else some (byteOf '"')) _
    rw [if_neg fun same => inner.1 same.symm]
    exact ih inner.2

theorem enclosed_spelling {entry : Attribute} (solid : IsSolid entry.key)
    (quoted : byteOf '"' ∉ entry.value) {rest : Bytes} (enclosed : Enclosed none rest) :
    Enclosed none (entry.spelling ++ rest) := by
  have front : ∀ byte ∈ byteOf ' ' :: (entry.key ++ [byteOf '=']),
      byte ≠ byteOf '>' ∧ byte ≠ byteOf '"' ∧ byte ≠ byteOf '\'' := by
    intro byte member
    rcases List.mem_cons.mp member with rfl | member
    · decide
    rcases List.mem_append.mp member with key | equals
    · exact solid.ne_marks byte key
    · rw [List.mem_singleton.mp equals]
      decide
  have whole := enclosed_append front (enclosed_quoted quoted enclosed)
  simpa only [Attribute.spelling, List.cons_append, List.append_assoc, List.nil_append]
    using whole

theorem enclosed_spellings {attributes : List Attribute}
    (keyed : ∀ entry ∈ attributes, IsSolid entry.key)
    (quoted : ∀ entry ∈ attributes, byteOf '"' ∉ entry.value) :
    Enclosed none (attributes.flatMap Attribute.spelling) := by
  induction attributes with
  | nil => exact rfl
  | cons entry attributes ih =>
    rw [List.flatMap_cons]
    apply enclosed_spelling (keyed _ List.mem_cons_self) (quoted _ List.mem_cons_self)
    apply ih
    · exact fun other member => keyed other (List.mem_cons_of_mem _ member)
    · exact fun other member => quoted other (List.mem_cons_of_mem _ member)

/-! ## The attributes of a tag -/

theorem takeWhile_value {value : Bytes} (quoted : byteOf '"' ∉ value) (rest : Bytes) :
    (value ++ byteOf '"' :: rest).takeWhile (· != byteOf '"') = value ∧
      (value ++ byteOf '"' :: rest).dropWhile (· != byteOf '"') = byteOf '"' :: rest := by
  have inner : ∀ byte ∈ value, (byte != byteOf '"') = true := by
    intro byte member
    rw [bne_iff_ne]
    rintro rfl
    exact quoted member
  rw [List.takeWhile_append_of_pos inner, List.dropWhile_append_of_pos inner]
  exact ⟨List.append_nil _, rfl⟩

/-- An attribute that is spelled out is found in front of the others. -/
theorem scanAttributes_spelling (entry : Attribute) (solid : IsSolid entry.key)
    (quoted : byteOf '"' ∉ entry.value) (total : Nat) {seen : List (Bytes × Nat)}
    (fresh : seen.lookup entry.key = none) (rest : Bytes) :
    ∃ start, scanAttributes true total seen (entry.spelling ++ rest) =
      let scan := scanAttributes true total ((entry.key, start) :: seen) rest
      { scan with found := entry :: scan.found } := by
  obtain ⟨first, key, same⟩ := List.exists_cons_of_ne_nil solid.nonempty
  obtain ⟨value, behind⟩ := takeWhile_value quoted rest
  have begins : isSpace first = false := by
    apply solid.isSpace_eq_false
    rw [same]
    exact List.mem_cons_self
  have inner : ∀ byte ∈ key, (!endsKey byte) = true := by
    intro byte member
    have member : byte ∈ entry.key := by
      rw [same]
      exact List.mem_cons_of_mem _ member
    rw [solid.endsKey_eq_false member]
    rfl
  obtain ⟨assigned, assignedIs⟩ : ∃ assigned, assigned = byteOf '=' :: byteOf '"' ::
      (entry.value ++ byteOf '"' :: rest) := ⟨_, rfl⟩
  have input : entry.spelling ++ rest = byteOf ' ' :: first :: (key ++ assigned) := by
    simp [Attribute.spelling, same, assignedIs]
  have keyFound : (byteOf ' ' :: first :: (key ++ assigned)).dropWhile isSpace =
      first :: (key ++ assigned) := by
    rw [List.dropWhile_cons_of_pos (by decide), List.dropWhile_cons_of_neg (by simp [begins])]
  have taken : (key ++ assigned).takeWhile (!endsKey ·) = key := by
    rw [List.takeWhile_append_of_pos inner, assignedIs]
    exact List.append_nil _
  have equalsFound : ((key ++ assigned).dropWhile (!endsKey ·)).dropWhile isSpace =
      byteOf '=' :: byteOf '"' :: (entry.value ++ byteOf '"' :: rest) := by
    rw [List.dropWhile_append_of_pos inner, assignedIs]
    rfl
  have unseen : (if true then seen.lookup (first :: (key ++ assigned).takeWhile (!endsKey ·))
      else none) = none := by
    rw [taken, ← same]
    exact fresh
  have step :=
    scanAttributes_of_attribute total keyFound equalsFound rfl unseen rfl (by decide) behind
  rw [taken, value, ← same] at step
  exact ⟨_, by rw [input]; exact step⟩

theorem scanAttributes_spellings {attributes : List Attribute}
    (keyed : ∀ entry ∈ attributes, IsSolid entry.key)
    (quoted : ∀ entry ∈ attributes, byteOf '"' ∉ entry.value)
    (distinct : (attributes.map Attribute.key).Nodup) {total : Nat} {seen : List (Bytes × Nat)}
    (fresh : ∀ entry ∈ attributes, seen.lookup entry.key = none) :
    scanAttributes true total seen (attributes.flatMap Attribute.spelling) =
      ⟨attributes, none⟩ := by
  induction attributes generalizing seen with
  | nil => exact scanAttributes_of_blank rfl
  | cons entry attributes ih =>
    rw [List.map_cons, List.nodup_cons] at distinct
    obtain ⟨start, found⟩ := scanAttributes_spelling entry (keyed _ List.mem_cons_self)
      (quoted _ List.mem_cons_self) total (fresh _ List.mem_cons_self)
      (attributes.flatMap Attribute.spelling)
    rw [List.flatMap_cons, found, ih]
    · exact fun other member => keyed other (List.mem_cons_of_mem _ member)
    · exact fun other member => quoted other (List.mem_cons_of_mem _ member)
    · exact distinct.2
    · intro other member
      have apart : other.key ≠ entry.key := by
        intro same
        exact distinct.1 (List.mem_map.mpr ⟨other, member, same⟩)
      rw [List.lookup_cons, beq_false_of_ne apart]
      exact fresh other (List.mem_cons_of_mem _ member)

/-! ## Whole tags -/

namespace Scannable

variable {name : Bytes} {attributes : List Attribute}

/-- The name of a tag ends at its first space. -/
theorem name_tag (scannable : Scannable name attributes) :
    (Tag.mk (tagContent name attributes)).name = name ∧
      (tagContent name attributes).dropWhile (!isSpace ·) =
        attributes.flatMap Attribute.spelling := by
  apply scannable.named.takeWhile_append
  cases attributes with
  | nil => rintro byte ⟨⟩
  | cons entry attributes =>
    rintro byte ⟨⟩
    rfl

/-- A tag has the attributes that were put into it. -/
theorem attributes_tag (scannable : Scannable name attributes) :
    (Tag.mk (tagContent name attributes)).attributes true = ⟨attributes, none⟩ := by
  rw [Tag.attributes, scannable.name_tag.2]
  exact scanAttributes_spellings scannable.keyed scannable.quoted scannable.distinct
    fun _ _ => rfl

/-- A start tag does not end like that of an empty element. -/
theorem getLast?_tagContent (scannable : Scannable name attributes) :
    (tagContent name attributes).getLast? ≠ some (byteOf '/') := by
  rcases attributes.eq_nil_or_concat with rfl | ⟨front, entry, rfl⟩
  · rw [tagContent, List.flatMap_nil, List.append_nil]
    intro last
    exact scannable.named.unmarked _ (List.mem_of_getLast? last) '/' (by decide) rfl
  · have shape : tagContent name (front.concat entry) =
        (name ++ (front.flatMap Attribute.spelling ++ byteOf ' ' :: (entry.key ++
          byteOf '=' :: byteOf '"' :: entry.value))) ++ [byteOf '"'] := by
      simp [tagContent, Attribute.spelling]
    rw [shape, List.getLast?_concat]
    decide

/-- In a tag that is put together only values may hold brackets. -/
theorem enclosed (scannable : Scannable name attributes) :
    Enclosed none (tagContent name attributes) :=
  enclosed_append scannable.named.ne_marks
    (enclosed_spellings scannable.keyed scannable.quoted)

end Scannable

end GraphMarkup.Markup
