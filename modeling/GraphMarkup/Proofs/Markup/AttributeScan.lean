import GraphMarkup.Markup.Attribute

/-!
# Scanning attributes one by one

A complete attribute in front of an input is found, and scanning goes on behind
its closing quote. Whether keys have to differ matters only to keys that do not.
-/

namespace GraphMarkup.Markup

open GraphMarkup.Text

/-- An attribute at the beginning of an input is found in front of the others. -/
theorem scanAttributes_of_attribute {distinct : Bool} (total : Nat)
    {seen : List (Bytes × Nat)} {input rest rest' rest'' rest''' : Bytes}
    {first equals quote last : UInt8}
    (keyFound : input.dropWhile isSpace = first :: rest)
    (equalsFound : (rest.dropWhile (!endsKey ·)).dropWhile isSpace = equals :: rest')
    (equalsIs : equals = byteOf '=')
    (fresh : (if distinct then seen.lookup (first :: rest.takeWhile (!endsKey ·)) else none) =
      none)
    (valueFound : rest'.dropWhile isSpace = quote :: rest'')
    (quoteIs : ¬(quote != byteOf '"' && quote != byteOf '\''))
    (quoteFound : rest''.dropWhile (· != quote) = last :: rest''') :
    scanAttributes distinct total seen input =
      let key := first :: rest.takeWhile (!endsKey ·)
      let scan :=
        scanAttributes distinct total ((key, total - (rest.length + 1)) :: seen) rest'''
      { scan with found := ⟨key, rest''.takeWhile (· != quote)⟩ :: scan.found } := by
  rw [scanAttributes]
  split
  · rename_i found
    cases keyFound.symm.trans found
  rename_i found
  cases keyFound.symm.trans found
  dsimp only
  split
  · rename_i found
    cases equalsFound.symm.trans found
  rename_i found
  cases equalsFound.symm.trans found
  rw [if_neg (by simp [equalsIs]), fresh]
  dsimp only
  split
  · rename_i found
    cases valueFound.symm.trans found
  rename_i found
  cases valueFound.symm.trans found
  rw [if_neg quoteIs]
  split
  · rename_i found
    cases quoteFound.symm.trans found
  rename_i found
  cases quoteFound.symm.trans found
  rfl

/-- Nothing but spaces holds no attributes. -/
theorem scanAttributes_of_blank {distinct : Bool} {total : Nat} {seen : List (Bytes × Nat)}
    {input : Bytes} (blank : input.dropWhile isSpace = []) :
    scanAttributes distinct total seen input = ⟨[], none⟩ := by
  rw [scanAttributes]
  split
  · rfl
  · rename_i found
    cases blank.symm.trans found

/-- Where all keys differ, it makes no difference whether they have to. -/
theorem scanAttributes_false_of_complete {total : Nat} {seen : List (Bytes × Nat)}
    {input : Bytes} (complete : (scanAttributes true total seen input).error? = none)
    (seen' : List (Bytes × Nat)) :
    scanAttributes false total seen' input = scanAttributes true total seen input := by
  fun_induction scanAttributes true total seen input generalizing seen' with
  | case1 _ _ blank => exact scanAttributes_of_blank blank
  | case2 => cases complete
  | case3 => cases complete
  | case4 => cases complete
  | case5 => cases complete
  | case6 => cases complete
  | case7 => cases complete
  | case8 _ _ _ _ keyFound _ _ _ _ equalsFound equalsIs _ _ _ valueFound quoteIs _ _
      quoteFound _ _ ih =>
    rw [scanAttributes_of_attribute total keyFound equalsFound (by simpa using equalsIs) rfl
      valueFound quoteIs quoteFound]
    dsimp only
    rw [ih complete]

namespace Tag

/-- Where the attributes of a tag are complete and their keys differ, they are
found whether keys have to differ or not. -/
theorem attributes_false_of_complete {tag : Tag}
    (complete : (tag.attributes true).error? = none) :
    tag.attributes false = tag.attributes true :=
  scanAttributes_false_of_complete complete []

/-- Where the attributes of a tag are complete, looking one up does not fail. -/
theorem attribute?_of_complete {tag : Tag} (complete : (tag.attributes true).error? = none)
    (key : Bytes) :
    tag.attribute? key =
      .ok (((tag.attributes true).found.find? (·.key = key)).map Attribute.value) := by
  simp only [attribute?, attributes_false_of_complete complete, complete]
  cases (tag.attributes true).found.find? (·.key = key) <;> rfl

end Tag

end GraphMarkup.Markup
