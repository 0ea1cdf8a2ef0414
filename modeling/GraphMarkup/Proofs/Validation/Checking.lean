import GraphMarkup.Proofs.Text.Blank
import GraphMarkup.Proofs.Text.Utf8
import GraphMarkup.Proofs.Validation.Validity
import Mathlib.Data.List.Basic

/-!
# Checking single events

For every check of the validator this says when it passes and what is known
afterwards. The open elements are the frames, with what may stand in them; of
the elements themselves the values of keys and the references are kept.
-/

namespace GraphMarkup.Validation

open GraphMarkup.Document
open GraphMarkup.Markup
open GraphMarkup.Schema
open GraphMarkup.Text

section

variable (schema : Schema)

/-- The frame of an open element. -/
def frameOf (ancestors : List Element) (element : Element) : Frame :=
  if IsChecked schema ancestors then
    ⟨element.name, takesText schema element, takesAnything schema element, false⟩
  else ⟨element.name, true, true, true⟩

/-- The frames of open elements. -/
def framesOf : List Element → List Frame
  | [] => []
  | element :: ancestors => frameOf schema ancestors element :: framesOf ancestors

/-- The values of an element for some keys, each with the position of its key. -/
def valuesOfKeys (element : Element) (keys : List (IdentityKey × Nat)) : List (Nat × String) :=
  keys.filterMap fun entry =>
    (valueAt? entry.1.element entry.1.attributeName element).map (entry.2, ·)

/-- The key values of an element. -/
def identityValues (element : Element) : List (Nat × String) :=
  valuesOfKeys element schema.keys.zipIdx

/-- The references of an element, and what they refer to. -/
def referencesMade (element : Element) : List (IdentityReference × String) :=
  schema.references.filterMap fun reference =>
    (valueAt? reference.element reference.attributeName element).map (reference, ·)

end

section

variable {schema : Schema}

@[simp]
theorem frameOf_name (ancestors : List Element) (element : Element) :
    (frameOf schema ancestors element).name = element.name := by
  rw [frameOf]
  split <;> rfl

theorem length_framesOf (ancestors : List Element) :
    (framesOf schema ancestors).length = ancestors.length := by
  induction ancestors with
  | nil => rfl
  | cons element ancestors ih => rw [framesOf, List.length_cons, ih, List.length_cons]

theorem isChecked_cons_iff {element : Element} {ancestors : List Element} :
    IsChecked schema (element :: ancestors) ↔
      takesAnything schema element = false ∧ IsChecked schema ancestors :=
  List.forall_mem_cons

theorem isChecked_nil : IsChecked schema [] := by
  intro ancestor member
  cases member

/-- Content is arbitrary exactly if its frame says so. -/
theorem lax_framesOf_iff {ancestors : List Element} :
    (framesOf schema ancestors).head?.any (fun frame => frame.lax || frame.anyChildren) ↔
      ¬ IsChecked schema ancestors := by
  cases ancestors with
  | nil => simp [framesOf, isChecked_nil]
  | cons element ancestors =>
    rw [isChecked_cons_iff]
    by_cases checked : IsChecked schema ancestors
    · simp [framesOf, frameOf, checked]
    · simp [framesOf, frameOf, checked]

/-! ## Elements -/

/-- The validator's comparison of namespaces is that of the tree. -/
theorem inTarget_iff (head : Element) :
    (match head.resolution, schema.targetNamespace? with
      | .bound uri, some target => uri == encodeUtf8 target
      | .bound _, none => false
      | _, target? => target?.isNone) = true ↔ InTarget schema head := by
  rcases head with ⟨tag, resolution⟩
  rw [InTarget, Element.namespace?]
  cases resolution with
  | bound uri => cases schema.targetNamespace? <;> simp
  | unbound | unknown => cases schema.targetNamespace? <;> simp

@[simp]
theorem violation_eq_ok {α : Type} {cause : Violation} {position : Nat} {value : α} :
    violation cause position = .ok value ↔ False := by
  rw [violation]
  constructor
  · intro same
    cases same
  · exact False.elim

@[simp]
theorem violation_bind {α β : Type} (cause : Violation) (position : Nat)
    (next : α → Except Error β) :
    (violation cause position >>= next) = violation cause position :=
  rfl

/-- An element passes if it belongs where it stands, and at the top if it is the
first one and a graphml element. -/
theorem checkElement_eq_ok_iff {head : Element} {ancestors : List Element} {progress : Progress}
    (frames : progress.frames = framesOf schema ancestors) {position : Nat} :
    checkElement schema head.resolution head.name progress position = .ok () ↔
      (ancestors = [] → progress.seenRoot = false ∧ head.name = ElementName.graphml) ∧
        Belongs schema ancestors head := by
  unfold checkElement
  extract_lets inTarget last
  have target : inTarget = true ↔ InTarget schema head := inTarget_iff head
  have declared : last () = .ok () ↔ (schema.element? head.name).isSome := by
    simp only [last]
    cases schema.element? head.name with
    | none => simp
    | some declaration => simp [pure, Except.pure]
  clear_value inTarget last
  rw [frames]
  cases ancestors with
  | nil =>
    simp only [framesOf, violation_bind, forall_const]
    constructor
    · intro passed
      by_cases seen : progress.seenRoot
      · simp [seen] at passed
      by_cases named : head.name = ElementName.graphml
      · cases inTarget with
        | false => simp [seen] at passed
        | true =>
          simp only [seen, named, bne_self_eq_false] at passed
          refine ⟨⟨by simpa using seen, named⟩, declared.mp (by simpa using passed),
            target.mp rfl, ?_⟩
          intro parent member
          cases member
      · simp [seen, named] at passed
    · rintro ⟨⟨seen, named⟩, belongs⟩
      simp [seen, named, target.mpr belongs.inTarget, declared.mpr belongs.declared]
  | cons parent around =>
    simp only [framesOf, frameOf_name, violation_bind]
    constructor
    · intro passed
      refine ⟨(by intro same; cases same), ?_⟩
      by_cases fits : (inTarget && (schema.element? parent.name).any
          (·.children.contains head.name)) = true
      · simp only [fits] at passed
        rw [Bool.and_eq_true] at fits
        refine ⟨declared.mp (by simpa using passed), target.mp fits.1, ?_⟩
        rintro _ ⟨⟩
        exact fits.2
      · simp only [fits] at passed
        simp at passed
    · rintro ⟨_, belongs⟩
      have allowed := belongs.allowed parent rfl
      simp only [target.mpr belongs.inTarget, allowed, declared.mpr belongs.declared]
      rfl

/-! ## Attributes -/

theorem localName_of_qualifier?_eq_none {key : Bytes} (plain : qualifier? key = none) :
    localName key = key := by
  have parts := congrArg List.length
    (List.takeWhile_append_dropWhile (p := (· != byteOf ':')) (l := key))
  rw [List.length_append] at parts
  have nothing : key.dropWhile (· != byteOf ':') = [] := by
    rw [← List.length_eq_zero_iff]
    by_cases whole : (key.takeWhile (· != byteOf ':')).length = key.length
    · omega
    · simp [qualifier?, whole] at plain
  rw [localName, nothing]

theorem Attribute.namedValue?_eq_some {found : Attribute} {name value : String}
    (declared : declaredName? found.key = none)
    (decoded : decodeUtf8 (localName found.key) = .ok name)
    (read : rawText found.value = .ok value) : found.namedValue? = some (name, value) := by
  rw [Attribute.namedValue?, declared, shownName_eq_of_decodeUtf8_eq decoded,
    textOf_eq_of_rawText_eq read]
  rfl

/-- The check of a value is that of the tree. -/
theorem acceptsValue_iff {found : Attribute} {name value : String}
    (declared : declaredName? found.key = none)
    (decoded : decodeUtf8 (localName found.key) = .ok name)
    (read : rawText found.value = .ok value) :
    AcceptsValue schema found ↔
      ((qualifier? found.key).isNone && !(schema.lexicalSpace name).accepts value) = false := by
  rw [AcceptsValue, textOf_eq_of_rawText_eq read]
  by_cases plain : qualifier? found.key = none
  · rw [localName_of_qualifier?_eq_none plain] at decoded
    simp [declared, plain, shownName_eq_of_decodeUtf8_eq decoded]
  · simp [plain]

/-- Values pass if they can be read and the schema accepts them all. -/
theorem checkValues_eq_ok_iff {element : String} {position : Nat} {attributes : List Attribute}
    {present : List (String × String)} :
    checkValues schema element position attributes = .ok present ↔
      (∀ found ∈ attributes, found.IsReadable) ∧
        (∀ found ∈ attributes, AcceptsValue schema found) ∧
          attributes.filterMap Attribute.namedValue? = present := by
  induction attributes generalizing present with
  | nil => simp [checkValues]
  | cons found rest ih =>
    rw [checkValues, List.forall_mem_cons, List.forall_mem_cons]
    by_cases declares : (declaredName? found.key).isSome
    · have passes : found.IsReadable ∧ AcceptsValue schema found := by
        constructor <;>
        · intro declared
          rw [declared] at declares
          cases declares
      have unnamed : found.namedValue? = none := by
        rw [Attribute.namedValue?, if_pos declares]
      rw [if_pos declares, ih, List.filterMap_cons_none unnamed, and_iff_right passes.1,
        and_iff_right passes.2]
    · have declared := Option.not_isSome_iff_eq_none.mp declares
      rw [if_neg declares]
      simp only [bind_eq_ok_iff, mapError_eq_ok_iff]
      constructor
      · rintro ⟨name, decoded, value, read, passed⟩
        have readable : found.IsReadable := fun _ => ⟨⟨name, decoded⟩, value, read⟩
        have named := Attribute.namedValue?_eq_some declared decoded read
        have accepted : AcceptsValue schema found ↔ _ := acceptsValue_iff declared decoded read
        split at passed
        · simp at passed
        · rename_i fits
          simp only [bind_eq_ok_iff, pure_eq_ok_iff, ih] at passed
          obtain ⟨others, ⟨readables, accepts, rfl⟩, rfl⟩ := passed
          rw [List.filterMap_cons_some named]
          rw [Bool.not_eq_true] at fits
          exact ⟨⟨readable, readables⟩, ⟨accepted.mpr fits, accepts⟩, rfl⟩
      · rintro ⟨⟨readable, readables⟩, ⟨accepts, others⟩, rfl⟩
        obtain ⟨⟨name, decoded⟩, value, read⟩ := readable declared
        have named := Attribute.namedValue?_eq_some declared decoded read
        have fits := (acceptsValue_iff declared decoded read).mp accepts
        refine ⟨name, decoded, value, read, ?_⟩
        rw [List.filterMap_cons_some named, fits, if_neg Bool.false_ne_true]
        simp only [bind_eq_ok_iff, pure_eq_ok_iff, ih]
        exact ⟨_, ⟨readables, others, rfl⟩, rfl⟩

theorem checkedAttributes_eq_ok_iff {head : Element} {element : String} {position : Nat}
    {present : List (String × String)} :
    checkedAttributes schema head.tag element position = .ok present ↔
      head.HasReadableAttributes ∧ (∀ found ∈ head.attributes, AcceptsValue schema found) ∧
        head.values = present := by
  have passes (present : List (String × String)) :
      checkValues schema element position head.attributes = .ok present ↔
        (∀ found ∈ head.attributes, found.IsReadable) ∧
          (∀ found ∈ head.attributes, AcceptsValue schema found) ∧ head.values = present :=
    checkValues_eq_ok_iff
  simp only [checkedAttributes, bind_eq_ok_iff]
  constructor
  · rintro ⟨values, passed, completed⟩
    obtain ⟨readable, accepted, rfl⟩ := (passes values).mp passed
    cases complete : (head.tag.attributes true).error? with
    | none =>
      rw [complete] at completed
      cases completed
      exact ⟨⟨complete, readable⟩, accepted, rfl⟩
    | some error =>
      rw [complete] at completed
      cases completed
  · rintro ⟨⟨complete, readable⟩, accepted, rfl⟩
    refine ⟨_, (passes _).mpr ⟨readable, accepted, rfl⟩, ?_⟩
    rw [complete]
    rfl

theorem checkRequired_eq_ok_iff {element : String} {present : List (String × String)}
    {position : Nat} :
    checkRequired schema element present position = .ok () ↔
      ∀ declaration ∈ schema.element? element,
        ∀ name ∈ declaration.required, (present.lookup (unqualified name)).isSome := by
  rw [checkRequired]
  cases schema.element? element with
  | none => simp
  | some declaration =>
    simp only [Option.mem_def, Option.some.injEq, forall_eq']
    cases missing : declaration.required.find? fun name =>
        (present.lookup (unqualified name)).isNone with
    | none =>
      simp only [List.find?_eq_none, Option.isNone_iff_eq_none] at missing
      simp only [true_iff]
      intro name member
      exact Option.isSome_iff_ne_none.mpr (missing name member)
    | some name =>
      have absent := List.find?_some missing
      simp only [violation_eq_ok, false_iff]
      intro all
      have present := all name (List.mem_of_find?_eq_some missing)
      rw [Option.isNone_iff_eq_none.mp absent] at present
      cases present

/-- Key values are collected if none of them comes up twice. -/
theorem collectKeys_eq_ok_iff {head : Element} {position : Nat}
    {keys : List (IdentityKey × Nat)} {keyValues result : List (Nat × String)}
    (distinct : keyValues.Nodup) :
    collectKeys head.name head.values position keyValues keys = .ok result ↔
      ((valuesOfKeys head keys).reverse ++ keyValues).Nodup ∧
        (valuesOfKeys head keys).reverse ++ keyValues = result := by
  induction keys generalizing keyValues with
  | nil => simp [collectKeys, valuesOfKeys, distinct]
  | cons entry keys ih =>
    rcases entry with ⟨key, index⟩
    have collected :
        (if key.element = head.name then head.values.lookup key.attributeName else none) =
          valueAt? key.element key.attributeName head := rfl
    rw [collectKeys, collected]
    cases found : valueAt? key.element key.attributeName head with
    | none =>
      have values : valuesOfKeys head ((key, index) :: keys) = valuesOfKeys head keys :=
        List.filterMap_cons_none (by rw [found]; rfl)
      rw [values]
      exact ih distinct
    | some value =>
      have values : valuesOfKeys head ((key, index) :: keys) =
          (index, value) :: valuesOfKeys head keys :=
        List.filterMap_cons_some (by rw [found]; rfl)
      rw [values, List.reverse_cons, List.append_assoc, List.singleton_append]
      dsimp only
      by_cases repeated : (index, value) ∈ keyValues
      · have known : keyValues.contains (index, value) := List.contains_iff_mem.mpr repeated
        rw [if_pos known, violation_eq_ok, false_iff]
        rintro ⟨fresh, _⟩
        have tail := (List.nodup_append.mp fresh).2.1
        exact (List.nodup_cons.mp tail).1 repeated
      · have unknown : ¬ keyValues.contains (index, value) :=
          fun known => repeated (List.contains_iff_mem.mp known)
        rw [if_neg unknown]
        exact ih (List.nodup_cons.mpr ⟨repeated, distinct⟩)

/-- The references that are kept are those of the element. -/
theorem map_referencesOf (head : Element) (position : Nat) :
    (referencesOf schema head.name head.values position).map
      (fun pending => (pending.reference, pending.value)) = referencesMade schema head := by
  rw [referencesOf, referencesMade, List.map_filterMap]
  refine List.filterMap_congr fun reference _ => ?_
  rw [valueAt?]
  split
  · rw [Element.value?, Option.map_map]
    rfl
  · rfl

/-- What is known behind the tag of a checked element. -/
def withElement (schema : Schema) (head : Element) (position : Nat) (progress : Progress) :
    Progress :=
  { progress with
    seenRoot := true
    keyValues := (identityValues schema head).reverse ++ progress.keyValues
    references := progress.references ++ referencesOf schema head.name head.values position }

theorem checkAttributes_eq_ok_iff {head : Element} {position : Nat} {progress result : Progress}
    (distinct : progress.keyValues.Nodup) :
    checkAttributes schema head.tag head.name position { progress with seenRoot := true } =
        .ok result ↔
      head.HasReadableAttributes ∧ HasValidAttributes schema head ∧
        ((identityValues schema head).reverse ++ progress.keyValues).Nodup ∧
          withElement schema head position progress = result := by
  simp only [checkAttributes, bind_eq_ok_iff, checkedAttributes_eq_ok_iff, pure_eq_ok_iff]
  constructor
  · rintro ⟨_, ⟨readable, accepted, rfl⟩, ⟨⟩, required, keyValues, collected, rfl⟩
    rw [collectKeys_eq_ok_iff distinct] at collected
    rcases collected with ⟨fresh, rfl⟩
    exact ⟨readable, ⟨checkRequired_eq_ok_iff.mp required, accepted⟩, fresh, rfl⟩
  · rintro ⟨readable, valid, fresh, rfl⟩
    exact ⟨_, ⟨readable, valid.accepted, rfl⟩, (), checkRequired_eq_ok_iff.mpr valid.required, _,
      (collectKeys_eq_ok_iff distinct).mpr ⟨fresh, rfl⟩, rfl⟩

/-- What is known behind a tag, which counts if its element is checked. -/
def behindTag (schema : Schema) (ancestors : List Element) (head : Element) (position : Nat)
    (progress : Progress) : Progress :=
  if IsChecked schema ancestors then withElement schema head position progress else progress

/-- A tag passes if the name of its element can be read, the element is not too deep and, should it
be checked, it belongs where it stands, has valid attributes and repeats no key value. -/
theorem startElement_eq_ok_iff {settings : Settings} {head : Element} {ancestors : List Element}
    {progress result : Progress} (frames : progress.frames = framesOf schema ancestors)
    (distinct : progress.keyValues.Nodup) {isEmpty : Bool} {position : Nat} :
    startElement schema settings head.resolution head.tag isEmpty position progress =
        .ok result ↔
      (∃ name, decodeUtf8 (localName head.tag.name) = .ok name) ∧
        ancestors.length < settings.maxNestingDepth ∧
        (IsChecked schema ancestors →
          (ancestors = [] → progress.seenRoot = false ∧ head.name = ElementName.graphml) ∧
            Belongs schema ancestors head ∧ head.HasReadableAttributes ∧
              HasValidAttributes schema head ∧
                ((identityValues schema head).reverse ++ progress.keyValues).Nodup) ∧
        pushFrame isEmpty (frameOf schema ancestors head)
          (behindTag schema ancestors head position progress) = result := by
  have lax : _ ↔ ¬ IsChecked schema ancestors := lax_framesOf_iff
  rw [← frames] at lax
  have depth : progress.frames.length = ancestors.length := by
    rw [frames, length_framesOf]
  rw [startElement, depth]
  by_cases deep : settings.maxNestingDepth ≤ ancestors.length
  · simp [deep, Nat.not_lt.mpr deep]
  rw [if_neg deep, and_iff_right (Nat.lt_of_not_le deep)]
  cases decoded : decodeUtf8 (localName head.tag.name) with
  | error cause => simp
  | ok name =>
    have shown : head.name = name := shownName_eq_of_decodeUtf8_eq decoded
    rw [and_iff_right ⟨name, rfl⟩]
    simp only [bind_eq_ok_iff, mapError_eq_ok_iff, Except.ok.injEq, exists_eq_left', ← shown]
    by_cases checked : IsChecked schema ancestors
    · have strict : ¬ progress.frames.head?.any (fun frame => frame.lax || frame.anyChildren) :=
        fun loose => lax.mp loose checked
      have frame : frameOf schema ancestors head =
          ⟨head.name, takesText schema head, takesAnything schema head, false⟩ := if_pos checked
      have behind : behindTag schema ancestors head position progress =
          withElement schema head position progress := if_pos checked
      rw [if_neg strict, frame, behind, forall_prop_of_true checked]
      simp only [bind_eq_ok_iff, checkElement_eq_ok_iff frames,
        checkAttributes_eq_ok_iff distinct, pure_eq_ok_iff]
      constructor
      · rintro ⟨_, ⟨first, belongs⟩, _, ⟨readable, valid, fresh, rfl⟩, pushed⟩
        exact ⟨⟨first, belongs, readable, valid, fresh⟩, pushed⟩
      · rintro ⟨⟨first, belongs, readable, valid, fresh⟩, pushed⟩
        exact ⟨(), ⟨first, belongs⟩, _, ⟨readable, valid, fresh, rfl⟩, pushed⟩
    · have frame : frameOf schema ancestors head = ⟨head.name, true, true, true⟩ :=
        if_neg checked
      have behind : behindTag schema ancestors head position progress = progress :=
        if_neg checked
      rw [if_pos (lax.mpr checked), frame, behind, pure_eq_ok_iff,
        and_iff_right fun holds => absurd holds checked]

/-- The tag of a well-formed element passes if nothing is wrong with its place or its attributes. -/
theorem startElement_of_wellFormed {settings : Settings} {head : Element}
    (wellFormed : head.WellFormed) {ancestors : List Element} {progress result : Progress}
    (frames : progress.frames = framesOf schema ancestors)
    (distinct : progress.keyValues.Nodup) {isEmpty : Bool} {position : Nat} :
    startElement schema settings head.resolution head.tag isEmpty position progress =
        .ok result ↔
      ancestors.length < settings.maxNestingDepth ∧
        (IsChecked schema ancestors →
          (ancestors = [] → progress.seenRoot = false ∧ head.name = ElementName.graphml) ∧
            Belongs schema ancestors head ∧ HasValidAttributes schema head ∧
              ((identityValues schema head).reverse ++ progress.keyValues).Nodup) ∧
        pushFrame isEmpty (frameOf schema ancestors head)
          (behindTag schema ancestors head position progress) = result := by
  rw [startElement_eq_ok_iff frames distinct, and_iff_right wellFormed.named]
  simp only [and_iff_right wellFormed.hasReadableAttributes]

/-! ## Character data and document types -/

/-- Character data passes if it is blank or stands where the schema allows it. -/
theorem checkText_eq_ok_iff {ancestors : List Element} {progress : Progress}
    (frames : progress.frames = framesOf schema ancestors) {text : String} {position : Nat} :
    checkText text progress position = .ok () ↔ MayHoldText schema ancestors text := by
  have blank : (trim text).isEmpty ↔ ∀ char ∈ text.toList, isBlank char := trim_isEmpty_iff
  rw [checkText, MayHoldText, frames]
  by_cases all : ∀ char ∈ text.toList, isBlank char
  · rw [if_pos (blank.mpr all)]
    refine iff_of_true rfl ?_
    rintro ⟨char, member, dark⟩
    rw [all char member] at dark
    cases dark
  · have dark : ∃ char ∈ text.toList, isBlank char = false := by
      simpa only [not_forall, Bool.not_eq_true, exists_prop] using all
    rw [if_neg (fun isEmpty => all (blank.mp isEmpty)), forall_prop_of_true dark]
    cases ancestors with
    | nil => simp [framesOf]
    | cons parent around =>
      simp only [framesOf, List.cons.injEq]
      by_cases checked : IsChecked schema around
      · simp [frameOf, checked]
      · simp [frameOf, checked]

theorem dropPrefix?_isSome_iff {α : Type} [DecidableEq α] {start items : List α} :
    (dropPrefix? start items).isSome ↔ start <+: items := by
  rw [Option.isSome_iff_exists]
  constructor
  · rintro ⟨rest, dropped⟩
    exact ⟨rest, (dropPrefix?_eq_some_iff.mp dropped).symm⟩
  · rintro ⟨rest, same⟩
    exact ⟨rest, dropPrefix?_eq_some_iff.mpr same.symm⟩

/-- A list can be cut at a pattern exactly if the pattern occurs in it. -/
theorem cutAt?_isSome_iff {α : Type} [DecidableEq α] {pattern items : List α} :
    (cutAt? pattern items).isSome ↔ pattern <:+: items := by
  induction items with
  | nil =>
    rw [cutAt?, Option.isSome_map, dropPrefix?_isSome_iff, List.prefix_nil, List.infix_nil]
  | cons item items ih =>
    rw [cutAt?, List.infix_cons_iff, ← dropPrefix?_isSome_iff, ← ih]
    cases dropPrefix? pattern (item :: items) with
    | none => simp
    | some rest => simp

/-- A document type passes if its definition is one of graph documents. -/
theorem checkDoctype_eq_ok_iff {resolver : Resolver} {settings : Settings} {content : Bytes}
    {position : Nat} :
    checkDoctype resolver settings (decodeUtf8Lossy content) position = .ok () ↔
      DoctypeAccepted resolver settings content := by
  rw [checkDoctype, DoctypeAccepted]
  cases systemId? (decodeUtf8Lossy content) with
  | none => simp
  | some systemId =>
    simp only [Option.some.injEq, forall_eq']
    cases resolver.resolve systemId with
    | error cause => simp
    | ok found? =>
      cases found? with
      | none => cases settings.requireDoctypeResolution <;> simp
      | some bytes =>
        cases decoded : decodeUtf8 bytes with
        | error cause => simp [decoded]
        | ok definition =>
          have occurs : _ ↔ rootDeclaration.toList <:+: definition.toList := cutAt?_isSome_iff
          cases cut : cutAt? rootDeclaration.toList definition.toList with
          | none => simp [decoded, cut, ← occurs]
          | some parts => simp [decoded, cut, ← occurs]

/-- What stands between tags is valid. -/
structure LeafValid (resolver : Resolver) (settings : Settings) (schema : Schema)
    (ancestors : List Element) (event : Event) : Prop where
  text : MayHoldText schema ancestors (characterData [.leaf event])
  doctype : ∀ content, event = .doctype content → DoctypeAccepted resolver settings content

theorem mayHoldText_empty (ancestors : List Element) : MayHoldText schema ancestors "" := by
  rintro ⟨char, member, _⟩
  cases member

theorem leafValid_of_ne_doctype {resolver : Resolver} {settings : Settings}
    {ancestors : List Element} {event : Event} (other : ∀ content, event ≠ .doctype content) :
    LeafValid resolver settings schema ancestors event ↔
      MayHoldText schema ancestors (characterData [.leaf event]) :=
  ⟨LeafValid.text, fun text => ⟨text, fun content same => absurd same (other content)⟩⟩

/-- An event that is no tag changes nothing, and passes if it is valid. -/
theorem checkEvent_leaf_eq_ok_iff {resolver : Resolver} {settings : Settings} {event : Event}
    (isLeaf : event.isLeaf) (wellFormed : event.WellFormed) {ancestors : List Element}
    {progress result : Progress} (frames : progress.frames = framesOf schema ancestors)
    {position : Nat} :
    checkEvent resolver settings schema progress ⟨.unbound, event⟩ position = .ok result ↔
      LeafValid resolver settings schema ancestors event ∧ progress = result := by
  cases event with
  | opening tag => cases isLeaf
  | empty tag => cases isLeaf
  | closing name => cases isLeaf
  | text raw =>
    obtain ⟨text, read⟩ := wellFormed
    rw [leafValid_of_ne_doctype (by intro content same; cases same)]
    simp [checkEvent, read, checkText_eq_ok_iff frames, characterData,
      textOf_eq_of_rawText_eq read]
  | cdata content =>
    obtain ⟨text, decoded⟩ := wellFormed
    rw [leafValid_of_ne_doctype (by intro content same; cases same)]
    simp [checkEvent, decodeUtf8Lossy_of_decodeUtf8_eq decoded, checkText_eq_ok_iff frames,
      characterData, shownName_eq_of_decodeUtf8_eq decoded]
  | comment content =>
    rw [leafValid_of_ne_doctype (by intro content same; cases same)]
    simp [checkEvent, characterData, mayHoldText_empty]
  | instruction content =>
    rw [leafValid_of_ne_doctype (by intro content same; cases same)]
    simp [checkEvent, characterData, mayHoldText_empty]
  | doctype content =>
    have valid : LeafValid resolver settings schema ancestors (.doctype content) ↔
        DoctypeAccepted resolver settings content := by
      constructor
      · intro valid
        exact valid.doctype content rfl
      · intro accepted
        refine ⟨mayHoldText_empty ancestors, ?_⟩
        rintro _ ⟨⟩
        exact accepted
    rw [valid]
    simp only [checkEvent, bind_eq_ok_iff, pure_eq_ok_iff]
    constructor
    · rintro ⟨_, passed, same⟩
      exact ⟨checkDoctype_eq_ok_iff.mp passed, same⟩
    · rintro ⟨accepted, same⟩
      exact ⟨(), checkDoctype_eq_ok_iff.mpr accepted, same⟩

end

end GraphMarkup.Validation
