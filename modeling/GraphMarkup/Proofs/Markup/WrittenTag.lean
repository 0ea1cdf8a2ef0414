import GraphMarkup.Markup.Printer
import GraphMarkup.Proofs.Markup.Escape
import GraphMarkup.Proofs.Markup.Forest
import GraphMarkup.Proofs.Markup.MarkupScan
import GraphMarkup.Proofs.Markup.PlainName

/-!
# Reading written tags

A tag that is written with names is read as it was written: it ends where it ends, it
has its name, and it has its attributes with their values, whatever characters these
are made of. The tags of the vocabulary have plain names, which say by themselves what
the names of elements and attributes are.
-/

namespace GraphMarkup.Markup

open GraphMarkup.Text

/-! ## Names -/

/-- A name that can stand in a tag. -/
def IsName (name : String) : Prop :=
  name ≠ "" ∧ ∀ char ∈ name.toList, char ∉ tagMarks

instance (name : String) : Decidable (IsName name) :=
  inferInstanceAs (Decidable (_ ∧ _))

theorem encodeUtf8_ne_nil {text : String} (some : text ≠ "") : encodeUtf8 text ≠ [] := by
  intro none
  apply some
  exact encodeUtf8_injective none

theorem IsName.isSolid {name : String} (isName : IsName name) : IsSolid (encodeUtf8 name) := by
  have ascii : ∀ mark ∈ tagMarks, mark.toNat ≤ 0x7F := by
    decide
  constructor
  · exact encodeUtf8_ne_nil isName.1
  · rintro byte member mark marked rfl
    exact isName.2 mark (mem_of_byteOf_mem_encodeUtf8 (ascii mark marked) member) marked

/-- Neither letters nor dots mean something in a tag. -/
theorem IsPlain.isName {name : String} (plain : IsPlain name) : IsName name := by
  have marks : ∀ mark ∈ tagMarks, ¬(mark.isAlpha ∨ mark = '.') := by
    decide
  constructor
  · rintro rfl
    exact plain.1 rfl
  · intro char member marked
    exact marks char marked (plain.2 char member)

/-- In the bytes of a text a colon stands only where it stands in the text. -/
theorem dropWhile_colon (chars : List Char) :
    (chars.flatMap String.utf8EncodeChar).dropWhile (· != byteOf ':') = [] ∨
      ∃ behind : List Char, (chars.flatMap String.utf8EncodeChar).dropWhile (· != byteOf ':') =
        byteOf ':' :: behind.flatMap String.utf8EncodeChar := by
  induction chars with
  | nil => exact .inl rfl
  | cons char chars ih =>
    by_cases colon : char = ':'
    · subst colon
      exact .inr ⟨chars, rfl⟩
    · have inner : ∀ byte ∈ String.utf8EncodeChar char, (byte != byteOf ':') = true := by
        intro byte member
        rw [bne_iff_ne]
        rintro rfl
        exact colon (eq_of_byteOf_mem_utf8EncodeChar (by decide) member).symm
      rw [List.flatMap_cons, List.dropWhile_append_of_pos inner]
      exact ih

/-- The local name of a text is a text. -/
theorem exists_decodeUtf8_localName (text : String) :
    ∃ name, decodeUtf8 (localName (encodeUtf8 text)) = .ok name := by
  have cases := dropWhile_colon text.toList
  rw [localName]
  rcases cases with none | ⟨behind, some⟩
  · rw [encodeUtf8, none]
    exact ⟨text, decodeUtf8_encodeUtf8 text⟩
  · rw [encodeUtf8, some]
    refine ⟨String.ofList behind, decodeUtf8_eq_ok_iff.mpr ?_⟩
    rw [encodeUtf8, String.toList_ofList]

/-! ## Tags -/

/-- An attribute as it stands in a written tag. -/
def spelledAttribute (entry : String × String) : Attribute :=
  ⟨encodeUtf8 entry.1, encodeUtf8 (escape entry.2)⟩

/-- What can be written as a tag: names, of which no two keys are the same. -/
structure IsTag (name : String) (attributes : List (String × String)) : Prop where
  named : IsName name
  keyed : ∀ entry ∈ attributes, IsName entry.1
  distinct : (attributes.map Prod.fst).Nodup

instance (name : String) (attributes : List (String × String)) :
    Decidable (IsTag name attributes) :=
  decidable_of_iff
    (IsName name ∧ (∀ entry ∈ attributes, IsName entry.1) ∧ (attributes.map Prod.fst).Nodup)
    ⟨fun ⟨named, keyed, distinct⟩ => ⟨named, keyed, distinct⟩,
    fun ⟨named, keyed, distinct⟩ => ⟨named, keyed, distinct⟩⟩

/-- The bytes of a written tag are those of its name and of its attributes. -/
theorem encodeUtf8_tagText (name : String) (attributes : List (String × String)) :
    encodeUtf8 (tagText name attributes) =
      tagContent (encodeUtf8 name) (attributes.map spelledAttribute) := by
  have space : encodeUtf8 " " = [byteOf ' '] := rfl
  have equals : encodeUtf8 "=\"" = [byteOf '=', byteOf '"'] := rfl
  have quote : encodeUtf8 "\"" = [byteOf '"'] := rfl
  have each : ∀ entry : String × String,
      encodeUtf8 (" " ++ entry.1 ++ "=\"" ++ escape entry.2 ++ "\"") =
        (spelledAttribute entry).spelling := by
    intro entry
    simp [encodeUtf8_append, spelledAttribute, Attribute.spelling, space, equals, quote]
  rw [tagText, tagContent, encodeUtf8_append, encodeUtf8_join, List.flatMap_map,
    List.flatMap_map]
  simp only [each]

/-- Escaped values hold no brackets and no quotes. -/
theorem not_mem_encodeUtf8_escape {char : Char} (marked : char ∈ marks) (text : String) :
    byteOf char ∉ encodeUtf8 (escape text) := by
  have ascii : ∀ char ∈ marks, char.toNat ≤ 0x7F := by
    decide
  intro member
  exact not_mem_marks_of_mem_escape
    (mem_of_byteOf_mem_encodeUtf8 (ascii char marked) member) marked

/-- The head of a written element. -/
def writtenElement (resolution : Resolution) (name : String)
    (attributes : List (String × String)) : Element :=
  ⟨⟨encodeUtf8 (tagText name attributes)⟩, resolution⟩

namespace IsTag

variable {name : String} {attributes : List (String × String)} {resolution : Resolution}

theorem scannable (isTag : IsTag name attributes) :
    Scannable (encodeUtf8 name) (attributes.map spelledAttribute) := by
  constructor
  · exact isTag.named.isSolid
  · intro found member
    obtain ⟨entry, listed, rfl⟩ := List.mem_map.mp member
    exact (isTag.keyed entry listed).isSolid
  · intro found member
    obtain ⟨entry, _, rfl⟩ := List.mem_map.mp member
    dsimp only [spelledAttribute]
    exact not_mem_encodeUtf8_escape (by decide) entry.2
  · have keys : (attributes.map spelledAttribute).map Attribute.key =
        (attributes.map Prod.fst).map encodeUtf8 := by
      rw [List.map_map, List.map_map]
      rfl
    rw [keys]
    exact List.Pairwise.map encodeUtf8
      (fun _ _ apart same => apart (encodeUtf8_injective same)) isTag.distinct

/-- A written tag can stand in a document. -/
theorem isSpelled (isTag : IsTag name attributes) :
    (Tag.mk (encodeUtf8 (tagText name attributes))).IsSpelled := by
  rw [encodeUtf8_tagText]
  exact isTag.scannable.isSpelled

/-- The name of a written tag ends at its first space. -/
theorem name_tagText (isTag : IsTag name attributes) :
    (Tag.mk (encodeUtf8 (tagText name attributes))).name = encodeUtf8 name := by
  rw [encodeUtf8_tagText]
  exact isTag.scannable.name_tag.1

theorem attributes_tagText (isTag : IsTag name attributes) :
    (Tag.mk (encodeUtf8 (tagText name attributes))).attributes true =
      ⟨attributes.map spelledAttribute, none⟩ := by
  rw [encodeUtf8_tagText]
  exact isTag.scannable.attributes_tag

/-- A written element is well-formed. -/
theorem wellFormed_writtenElement (isTag : IsTag name attributes)
    (declared : ∀ qualifier, resolution ≠ .unknown qualifier) :
    (writtenElement resolution name attributes).WellFormed := by
  have found : (writtenElement resolution name attributes).attributes =
      attributes.map spelledAttribute := by
    rw [Element.attributes, writtenElement, isTag.attributes_tagText]
  constructor
  · exact declared
  · rw [writtenElement, isTag.name_tagText]
    exact exists_decodeUtf8_localName name
  · rw [writtenElement, isTag.attributes_tagText]
  · intro listed member
    rw [found] at member
    obtain ⟨entry, _, rfl⟩ := List.mem_map.mp member
    exact exists_decodeUtf8_localName entry.1
  · intro listed member
    rw [found] at member
    obtain ⟨entry, _, rfl⟩ := List.mem_map.mp member
    dsimp only [spelledAttribute]
    exact ⟨entry.2, rawText_encodeUtf8_escape entry.2⟩

end IsTag

/-! ## Tags with plain names -/

/-- An attribute with a plain key as it stands in a written tag. -/
def writtenAttribute (entry : String × String) : Attribute :=
  ⟨bytesOf entry.1, encodeUtf8 (escape entry.2)⟩

/-- What is written as a tag: a plain name and attributes with plain keys, no two of
which are the same. -/
structure Writable (name : String) (attributes : List (String × String)) : Prop where
  named : IsPlain name
  keyed : ∀ entry ∈ attributes, IsPlain entry.1
  distinct : (attributes.map Prod.fst).Nodup

/-- Plain names have no qualifier. -/
theorem IsPlain.localName_bytesOf {name : String} (plain : IsPlain name) :
    localName (bytesOf name) = bytesOf name := by
  have nothing : (bytesOf name).dropWhile (· != byteOf ':') = [] := by
    rw [List.dropWhile_eq_nil_iff]
    intro byte member
    exact bne_iff_ne.mpr (ne_of_isPlainByte (plain.isPlainByte_of_mem member) rfl)
  rw [localName, nothing]

theorem IsPlain.decodeUtf8_bytesOf {name : String} (plain : IsPlain name) :
    decodeUtf8 (bytesOf name) = .ok name := by
  rw [← plain.encodeUtf8_eq, decodeUtf8_encodeUtf8]

namespace Writable

variable {name : String} {attributes : List (String × String)} {resolution : Resolution}

theorem isTag (writable : Writable name attributes) : IsTag name attributes where
  named := writable.named.isName
  keyed entry member := (writable.keyed entry member).isName
  distinct := writable.distinct

theorem name_tagText (writable : Writable name attributes) :
    (Tag.mk (encodeUtf8 (tagText name attributes))).name = bytesOf name := by
  rw [writable.isTag.name_tagText, writable.named.encodeUtf8_eq]

theorem attributes_tag (writable : Writable name attributes) :
    (Tag.mk (encodeUtf8 (tagText name attributes))).attributes true =
      ⟨attributes.map writtenAttribute, none⟩ := by
  have same : ∀ entry ∈ attributes, spelledAttribute entry = writtenAttribute entry := by
    intro entry member
    rw [spelledAttribute, (writable.keyed entry member).encodeUtf8_eq]
    rfl
  rw [writable.isTag.attributes_tagText, List.map_congr_left same]

theorem attributes_writtenElement (writable : Writable name attributes) :
    (writtenElement resolution name attributes).attributes =
      attributes.map writtenAttribute := by
  rw [Element.attributes, writtenElement, writable.attributes_tag]

/-- A written element has its name. -/
theorem name_writtenElement (writable : Writable name attributes) :
    (writtenElement resolution name attributes).name = name := by
  rw [Element.name, writtenElement, writable.name_tagText, writable.named.localName_bytesOf]
  exact shownName_eq_of_decodeUtf8_eq writable.named.decodeUtf8_bytesOf

/-- A written element is well-formed. -/
theorem wellFormed_writtenElement (writable : Writable name attributes)
    (declared : ∀ qualifier, resolution ≠ .unknown qualifier) :
    (writtenElement resolution name attributes).WellFormed :=
  writable.isTag.wellFormed_writtenElement declared

/-- A written element has the values that it was written with. -/
theorem attribute?_writtenElement (writable : Writable name attributes) {key : String}
    (plain : IsPlain key) :
    (writtenElement resolution name attributes).attribute? key = attributes.lookup key := by
  rw [Element.attribute?, writable.attributes_writtenElement]
  have keyed := writable.keyed
  clear writable
  induction attributes with
  | nil => rfl
  | cons entry attributes ih =>
    have ih := ih fun other member => keyed other (List.mem_cons_of_mem _ member)
    have same := (keyed entry List.mem_cons_self).bytesOf_inj plain
    rcases entry with ⟨key', value⟩
    rw [List.map_cons, List.find?_cons, List.lookup_cons]
    by_cases equal : key' = key
    · subst equal
      simp [writtenAttribute, textOf_eq_of_rawText_eq (rawText_encodeUtf8_escape value)]
    · have apart : decide ((writtenAttribute (key', value)).key = bytesOf key) = false :=
        decide_eq_false fun bytes => equal (same.mp bytes)
      rw [apart, beq_false_of_ne fun reversed => equal reversed.symm]
      exact ih

end Writable

end GraphMarkup.Markup
