import GraphMarkup.Proofs.Result
import GraphMarkup.Proofs.Schema.GraphSchema
import GraphMarkup.Proofs.Text.Utf8
import GraphMarkup.Validation.Validator
import Mathlib.Data.List.Induction

/-!
# Errors of validation

The checks of a document report violations. Before something is checked it is decoded: character
data, the name of an element, and the keys and values of its attributes. What cannot be decoded is
no violation but an error of its own. So validation ends with a verdict exactly if the pass comes
to nothing that it cannot decode.
-/

namespace GraphMarkup.Validation

open GraphMarkup.Markup
open GraphMarkup.Schema
open GraphMarkup.Text

/-- An error that is a verdict on a document. -/
def IsViolation (error : Error) : Prop :=
  ∃ cause, error = .validation cause

/-- A resolver that does not fail and whose documents are UTF-8. -/
def ServesText (resolver : Resolver) : Prop :=
  ∀ location, ∃ document?, resolver.resolve location = .ok document? ∧
    ∀ document ∈ document?, ∃ text, decodeUtf8 document = .ok text

/-! ## What cannot be decoded -/

/-- An attribute that declares no namespace cannot be decoded, with this error. -/
inductive UndecodableAttribute (found : Attribute) : Error → Prop where
  | name {cause : Utf8Error} (declares : declaredName? found.key = none)
      (fails : decodeUtf8 (localName found.key) = .error cause) :
      UndecodableAttribute found (.encoding cause)
  | value {name : String} {cause : MarkupError} (declares : declaredName? found.key = none)
      (named : decodeUtf8 (localName found.key) = .ok name)
      (fails : rawText found.value = .error cause) : UndecodableAttribute found (.markup cause)

/-- The attributes of a tag cannot be decoded: those in front pass the checks, and behind them
stands one that cannot be decoded or no attribute at all. -/
inductive UndecodableAttributes (schema : Schema) (element : String) (position : Nat) (tag : Tag) :
    Error → Prop where
  | inside {before after : List Attribute} {found : Attribute} {error : Error}
      {present : List (String × String)}
      (split : (tag.attributes true).found = before ++ found :: after)
      (passed : checkValues schema element position before = .ok present)
      (fails : UndecodableAttribute found error) :
      UndecodableAttributes schema element position tag error
  | behind {present : List (String × String)} {cause : AttributeError}
      (passed : checkValues schema element position (tag.attributes true).found = .ok present)
      (fails : (tag.attributes true).error? = some cause) :
      UndecodableAttributes schema element position tag (.attributes cause)

/-- An element that is not nested too deeply cannot be decoded: its name, or its attributes if it
is checked and may stand where it does. -/
inductive UndecodableElement (settings : Settings) (schema : Schema) (resolution : Resolution)
    (tag : Tag) (position : Nat) (progress : Progress) : Error → Prop where
  | name {cause : Utf8Error} (shallow : progress.frames.length < settings.maxNestingDepth)
      (fails : decodeUtf8 (localName tag.name) = .error cause) :
      UndecodableElement settings schema resolution tag position progress (.encoding cause)
  | attributes {name : String} {error : Error}
      (shallow : progress.frames.length < settings.maxNestingDepth)
      (named : decodeUtf8 (localName tag.name) = .ok name)
      (isChecked : progress.frames.head?.any (fun frame => frame.lax || frame.anyChildren) = false)
      (stands : checkElement schema resolution name progress position = .ok ())
      (fails : UndecodableAttributes schema name position tag error) :
      UndecodableElement settings schema resolution tag position progress error

/-- An event cannot be decoded, with this error. -/
inductive Undecodable (settings : Settings) (schema : Schema) (progress : Progress)
    (position : Nat) : Resolved → Error → Prop where
  | opening {resolution : Resolution} {tag : Tag} {error : Error}
      (fails : UndecodableElement settings schema resolution tag position progress error) :
      Undecodable settings schema progress position ⟨resolution, .opening tag⟩ error
  | empty {resolution : Resolution} {tag : Tag} {error : Error}
      (fails : UndecodableElement settings schema resolution tag position progress error) :
      Undecodable settings schema progress position ⟨resolution, .empty tag⟩ error
  | text {resolution : Resolution} {raw : Bytes} {cause : MarkupError}
      (fails : rawText raw = .error cause) :
      Undecodable settings schema progress position ⟨resolution, .text raw⟩ (.markup cause)

/-- The pass comes to an event: those in front of it pass the checks. -/
inductive Reaches (resolver : Resolver) (settings : Settings) (schema : Schema) :
    Progress → Trace Resolved → Progress → Resolved → Nat → Prop where
  | here {progress : Progress} {resolved : Resolved} {position : Nat} {rest : Trace Resolved} :
      Reaches resolver settings schema progress (.item resolved position rest) progress resolved
        position
  | behind {progress middle last : Progress} {first resolved : Resolved} {start position : Nat}
      {rest : Trace Resolved}
      (passed : checkEvent resolver settings schema progress first start = .ok middle)
      (reaches : Reaches resolver settings schema middle rest last resolved position) :
      Reaches resolver settings schema progress (.item first start rest) last resolved position

/-! ## Checks -/

section

variable {resolver : Resolver} {settings : Settings} {schema : Schema} {error : Error}

theorem isViolation_of_violation {α : Type} {cause : Violation} {position : Nat}
    (fails : (violation cause position : Except Error α) = .error error) : IsViolation error :=
  ⟨_, (Except.error.inj fails).symm⟩

theorem isViolation_of_checkDoctype (serves : ServesText resolver) {content : String}
    {position : Nat} (fails : checkDoctype resolver settings content position = .error error) :
    IsViolation error := by
  rw [checkDoctype] at fails
  split at fails
  · rename_i systemId _
    obtain ⟨document?, answer, isText⟩ := serves systemId
    rw [answer, bind_eq_error_iff] at fails
    rcases fails with ⟨⟨⟩⟩ | ⟨document?, ⟨⟩, fails⟩
    cases document? with
    | none =>
      dsimp only at fails
      split at fails
      · exact ⟨_, (Except.error.inj fails).symm⟩
      · cases fails
    | some document =>
      obtain ⟨text, decoded⟩ := isText document rfl
      dsimp only at fails
      rw [decoded] at fails
      dsimp only at fails
      split at fails
      · exact ⟨_, (Except.error.inj fails).symm⟩
      · cases fails
  · cases fails

theorem isViolation_of_checkElement {resolution : Resolution} {name : String}
    {progress : Progress} {position : Nat}
    (fails : checkElement schema resolution name progress position = .error error) :
    IsViolation error := by
  unfold checkElement at fails
  extract_lets inTarget last at fails
  have undeclared (behind : last () = .error error) : IsViolation error := by
    simp only [last] at behind
    split at behind
    · exact isViolation_of_violation behind
    · cases behind
  split at fails
  · split at fails
    · exact isViolation_of_violation fails
    · split at fails
      · exact isViolation_of_violation fails
      · exact undeclared fails
  · extract_lets allowed at fails
    split at fails
    · exact isViolation_of_violation fails
    · exact undeclared fails

theorem isViolation_of_checkRequired {element : String} {present : List (String × String)}
    {position : Nat} (fails : checkRequired schema element present position = .error error) :
    IsViolation error := by
  rw [checkRequired] at fails
  split at fails
  · cases fails
  · split at fails
    · exact isViolation_of_violation fails
    · cases fails

theorem isViolation_of_collectKeys {element : String} {present : List (String × String)}
    {position : Nat} {keyValues : List (Nat × String)} {keys : List (IdentityKey × Nat)}
    (fails : collectKeys element present position keyValues keys = .error error) :
    IsViolation error := by
  fun_induction collectKeys element present position keyValues keys with
  | case1 => cases fails
  | case2 _ _ _ _ _ ih => exact ih fails
  | case3 => exact isViolation_of_violation fails
  | case4 _ _ _ _ _ _ _ ih => exact ih fails

theorem isViolation_of_checkText {text : String} {progress : Progress} {position : Nat}
    (fails : checkText text progress position = .error error) : IsViolation error := by
  rw [checkText] at fails
  split at fails
  · cases fails
  · split at fails
    · exact isViolation_of_violation fails
    · split at fails
      · cases fails
      · exact isViolation_of_violation fails

theorem isViolation_of_checkReferences {keyValues : List (Nat × String)}
    {references : List PendingReference}
    (fails : checkReferences schema keyValues references = .error error) : IsViolation error := by
  fun_induction checkReferences schema keyValues references with
  | case1 => cases fails
  | case2 _ _ _ ih => exact ih fails
  | case3 _ _ _ _ _ _ ih => exact ih fails
  | case4 => exact isViolation_of_violation fails

/-! ## Attributes -/

/-- Attributes are checked one behind the other. -/
theorem checkValues_append (element : String) (position : Nat) (front back : List Attribute) :
    checkValues schema element position (front ++ back) = (do
      let values ← checkValues schema element position front
      let others ← checkValues schema element position back
      pure (values ++ others)) := by
  induction front with
  | nil =>
    rw [List.nil_append, checkValues]
    cases checkValues schema element position back <;> rfl
  | cons found front ih =>
    rw [List.cons_append, checkValues, checkValues, ih]
    split
    · rfl
    · cases decodeUtf8 (localName found.key) with
      | error => rfl
      | ok name =>
        cases rawText found.value with
        | error => rfl
        | ok value =>
          change (if _ then violation _ _ else _) = (if _ then violation _ _ else _) >>= _
          split
          · rfl
          · simp only [bind_assoc, pure_bind, List.cons_append]

/-- A single attribute is a violation or cannot be decoded. -/
theorem checkValues_singleton_error {element : String} {position : Nat} {found : Attribute}
    (fails : checkValues schema element position [found] = .error error) :
    IsViolation error ∨ UndecodableAttribute found error := by
  rw [checkValues] at fails
  split at fails
  · cases fails
  · rename_i declares
    rw [Option.not_isSome_iff_eq_none] at declares
    simp only [bind_eq_error_iff, mapError_eq_error_iff, mapError_eq_ok_iff] at fails
    rcases fails with ⟨cause, fails, rfl⟩ | ⟨name, named, ⟨cause, fails, rfl⟩ | ⟨value, -, fails⟩⟩
    · exact Or.inr (.name declares fails)
    · exact Or.inr (.value declares named fails)
    · split at fails
      · exact Or.inl (isViolation_of_violation fails)
      · cases fails

theorem UndecodableAttribute.checkValues_singleton {found : Attribute}
    (fails : UndecodableAttribute found error) (element : String) (position : Nat) :
    checkValues schema element position [found] = .error error := by
  cases fails with
  | name declares fails =>
    rw [checkValues, declares, fails]
    rfl
  | value declares named fails =>
    rw [checkValues, declares, named, fails]
    rfl

/-- The values of attributes are violations or cannot be decoded. -/
theorem checkValues_error {element : String} {position : Nat} {attributes : List Attribute}
    (fails : checkValues schema element position attributes = .error error) :
    IsViolation error ∨ ∃ before found after present, attributes = before ++ found :: after ∧
      checkValues schema element position before = .ok present ∧
        UndecodableAttribute found error := by
  -- From the right, since the attributes in front of the one that fails have to pass as a whole.
  induction attributes using List.reverseRecOn with
  | nil => cases fails
  | append_singleton front found ih =>
    rw [checkValues_append, bind_eq_error_iff] at fails
    rcases fails with fails | ⟨present, passed, fails⟩
    · rcases ih fails with violation | ⟨before, other, after, present, rfl, passed, undecodable⟩
      · exact Or.inl violation
      · refine Or.inr ⟨before, other, after ++ [found], present, ?_, passed, undecodable⟩
        rw [List.append_assoc, List.cons_append]
    · rw [bind_eq_error_iff] at fails
      rcases fails with fails | ⟨_, -, fails⟩
      · rcases checkValues_singleton_error fails with violation | undecodable
        · exact Or.inl violation
        · exact Or.inr ⟨front, found, [], present, rfl, passed, undecodable⟩
      · exact absurd fails pure_ne_error

/-- The checks end at an attribute that cannot be decoded if those in front of it pass. -/
theorem UndecodableAttribute.checkValues_append {element : String} {position : Nat}
    {before : List Attribute} {present : List (String × String)} {found : Attribute}
    (fails : UndecodableAttribute found error)
    (passed : checkValues schema element position before = .ok present) (after : List Attribute) :
    checkValues schema element position (before ++ found :: after) = .error error := by
  have single : checkValues schema element position [found] = .error error :=
    fails.checkValues_singleton element position
  rw [← List.singleton_append, Validation.checkValues_append, Validation.checkValues_append,
    passed, single]
  rfl

/-! ## Elements -/

/-- The attributes of a tag are violations or cannot be decoded. -/
theorem checkedAttributes_error {tag : Tag} {element : String} {position : Nat}
    (fails : checkedAttributes schema tag element position = .error error) :
    IsViolation error ∨ UndecodableAttributes schema element position tag error := by
  simp only [checkedAttributes, bind_eq_error_iff] at fails
  rcases fails with fails | ⟨present, passed, fails⟩
  · rcases checkValues_error fails with
      violation | ⟨before, found, after, present, split, passed, undecodable⟩
    · exact Or.inl violation
    · exact Or.inr (.inside split passed undecodable)
  · split at fails
    · rename_i cause faulty
      cases fails
      exact Or.inr (.behind passed faulty)
    · exact absurd fails pure_ne_error

theorem UndecodableAttributes.checkedAttributes {tag : Tag} {element : String} {position : Nat}
    (fails : UndecodableAttributes schema element position tag error) :
    checkedAttributes schema tag element position = .error error := by
  simp only [Validation.checkedAttributes, bind_eq_error_iff]
  cases fails with
  | inside split passed fails =>
    rw [split]
    exact Or.inl (fails.checkValues_append passed _)
  | behind passed fails =>
    rw [fails]
    exact Or.inr ⟨_, passed, rfl⟩

/-- A tag is a violation or cannot be decoded. -/
theorem startElement_error {resolution : Resolution} {tag : Tag} {isEmpty : Bool} {position : Nat}
    {progress : Progress}
    (fails : startElement schema settings resolution tag isEmpty position progress = .error error) :
    IsViolation error ∨
      UndecodableElement settings schema resolution tag position progress error := by
  rw [startElement] at fails
  split at fails
  · exact Or.inl (isViolation_of_violation fails)
  · rename_i shallow
    rw [Nat.not_le] at shallow
    rw [bind_eq_error_iff] at fails
    rcases fails with fails | ⟨name, named, fails⟩
    · obtain ⟨cause, undecoded, rfl⟩ := mapError_eq_error_iff.mp fails
      exact Or.inr (.name shallow undecoded)
    · rw [mapError_eq_ok_iff] at named
      split at fails
      · exact absurd fails pure_ne_error
      · rename_i isChecked
        simp only [bind_eq_error_iff, checkAttributes] at fails
        rcases fails with fails | ⟨⟨⟩, stands,
          (fails | ⟨present, -, fails | ⟨⟨⟩, -, fails | fails⟩⟩) | fails⟩
        · exact Or.inl (isViolation_of_checkElement fails)
        · rcases checkedAttributes_error fails with violation | undecodable
          · exact Or.inl violation
          · exact Or.inr (.attributes shallow named (by simpa using isChecked) stands undecodable)
        · exact Or.inl (isViolation_of_checkRequired fails)
        · exact Or.inl (isViolation_of_collectKeys fails)
        · obtain ⟨_, -, fails⟩ := fails
          exact absurd fails pure_ne_error
        · obtain ⟨_, -, fails⟩ := fails
          exact absurd fails pure_ne_error

theorem UndecodableElement.startElement {resolution : Resolution} {tag : Tag} {position : Nat}
    {progress : Progress}
    (fails : UndecodableElement settings schema resolution tag position progress error)
    (isEmpty : Bool) :
    startElement schema settings resolution tag isEmpty position progress = .error error := by
  rw [Validation.startElement]
  cases fails with
  | name shallow fails =>
    rw [if_neg (Nat.not_le.mpr shallow), fails]
    rfl
  | attributes shallow named isChecked stands fails =>
    rw [if_neg (Nat.not_le.mpr shallow), named]
    change (if _ then _ else _) = _
    rw [if_neg (by simpa using isChecked)]
    simp only [bind_eq_error_iff, checkAttributes]
    exact Or.inr ⟨(), stands, Or.inl (Or.inl fails.checkedAttributes)⟩

/-! ## Events -/

/-- An event is a violation or cannot be decoded. -/
theorem checkEvent_error (serves : ServesText resolver) {progress : Progress} {resolved : Resolved}
    {position : Nat}
    (fails : checkEvent resolver settings schema progress resolved position = .error error) :
    IsViolation error ∨ Undecodable settings schema progress position resolved error := by
  obtain ⟨resolution, event⟩ := resolved
  cases event with
  | opening tag => exact (startElement_error fails).imp_right .opening
  | empty tag => exact (startElement_error fails).imp_right .empty
  | text raw =>
    simp only [checkEvent, bind_eq_error_iff, mapError_eq_error_iff] at fails
    rcases fails with ⟨cause, fails, rfl⟩ | ⟨text, -, fails | ⟨_, -, fails⟩⟩
    · exact Or.inr (.text fails)
    · exact Or.inl (isViolation_of_checkText fails)
    · exact absurd fails pure_ne_error
  | cdata content =>
    simp only [checkEvent, bind_eq_error_iff] at fails
    rcases fails with fails | ⟨_, -, fails⟩
    · exact Or.inl (isViolation_of_checkText fails)
    · exact absurd fails pure_ne_error
  | doctype content =>
    simp only [checkEvent, bind_eq_error_iff] at fails
    rcases fails with fails | ⟨_, -, fails⟩
    · exact Or.inl (isViolation_of_checkDoctype serves fails)
    · exact absurd fails pure_ne_error
  | closing _ | comment _ | instruction _ => exact absurd fails pure_ne_error

theorem Undecodable.checkEvent {progress : Progress} {resolved : Resolved} {position : Nat}
    (fails : Undecodable settings schema progress position resolved error) :
    checkEvent resolver settings schema progress resolved position = .error error := by
  cases fails with
  | opening fails => exact fails.startElement false
  | empty fails => exact fails.startElement true
  | text fails =>
    rw [Validation.checkEvent]
    dsimp only
    rw [fails]
    rfl

/-- No verdict is given on what cannot be decoded. -/
theorem Undecodable.not_isViolation {progress : Progress} {resolved : Resolved} {position : Nat}
    (fails : Undecodable settings schema progress position resolved error) :
    ¬IsViolation error := by
  rintro ⟨cause, rfl⟩
  have element {resolution : Resolution} {tag : Tag} :
      ¬UndecodableElement settings schema resolution tag position progress (.validation cause) := by
    rintro (_ | ⟨-, -, -, -, ⟨-, -, ⟨⟩⟩ | ⟨⟩⟩)
  cases fails with
  | opening fails => exact element fails
  | empty fails => exact element fails

/-! ## Documents -/

/-- A pass that fails ends at markup that cannot be read or at an event that fails. -/
theorem checkEvents_error {trace : Trace Resolved} {progress : Progress}
    (fails : checkEvents resolver settings schema progress trace = .error error) :
    IsViolation error ∨ ∃ last resolved position,
      Reaches resolver settings schema progress trace last resolved position ∧
        checkEvent resolver settings schema last resolved position = .error error := by
  induction trace generalizing progress with
  | ended => cases fails
  | failed cause start stop => exact Or.inl (isViolation_of_violation fails)
  | item resolved start rest ih =>
    rw [checkEvents] at fails
    split at fails
    · rename_i step
      cases fails
      exact Or.inr ⟨progress, resolved, start, .here, step⟩
    · rename_i middle step
      rcases ih fails with violation | ⟨last, other, position, reaches, fails⟩
      · exact Or.inl violation
      · exact Or.inr ⟨last, other, position, .behind step reaches, fails⟩

/-- A pass ends with the error of the event that it comes to. -/
theorem Reaches.checkEvents {trace : Trace Resolved} {progress last : Progress}
    {resolved : Resolved} {position : Nat}
    (reaches : Reaches resolver settings schema progress trace last resolved position)
    (fails : checkEvent resolver settings schema last resolved position = .error error) :
    checkEvents resolver settings schema progress trace = .error error := by
  induction reaches with
  | here => rw [Validation.checkEvents, fails]
  | behind passed _ ih =>
    rw [Validation.checkEvents, passed]
    exact ih fails

/-- A document that is rejected with an error of its own is one where the pass comes to something
that cannot be decoded. -/
theorem validate_error (serves : ServesText resolver) {document : Bytes}
    (fails : validate resolver settings schema document = .error error) :
    IsViolation error ∨ ∃ progress resolved position,
      Reaches resolver settings schema {} (Markup.read document) progress resolved position ∧
        Undecodable settings schema progress position resolved error := by
  rw [validate, bind_eq_error_iff] at fails
  rcases fails with fails | ⟨progress, -, fails⟩
  · rcases checkEvents_error fails with violation | ⟨last, resolved, position, reaches, fails⟩
    · exact Or.inl violation
    · exact (checkEvent_error serves fails).imp_right
        fun undecodable => ⟨last, resolved, position, reaches, undecodable⟩
  · split at fails
    · exact Or.inl (isViolation_of_checkReferences fails)
    · exact Or.inl ⟨_, (Except.error.inj fails).symm⟩

/-- A resolver that serves text is given. A document is accepted or rejected with a violation
exactly if the pass comes to nothing that cannot be decoded. Otherwise validation fails with the
error of that. -/
theorem validate_isVerdict_iff (serves : ServesText resolver) (settings : Settings)
    (schema : Schema) (document : Bytes) :
    ((validate resolver settings schema document = .ok () ∨
        ∃ cause, validate resolver settings schema document = .error (.validation cause)) ↔
      ∀ progress resolved position error,
        Reaches resolver settings schema {} (Markup.read document) progress resolved position →
          ¬Undecodable settings schema progress position resolved error) ∧
    ∀ progress resolved position error,
      Reaches resolver settings schema {} (Markup.read document) progress resolved position →
        Undecodable settings schema progress position resolved error →
          validate resolver settings schema document = .error error := by
  have ends : ∀ progress resolved position error,
      Reaches resolver settings schema {} (Markup.read document) progress resolved position →
        Undecodable settings schema progress position resolved error →
          validate resolver settings schema document = .error error := by
    intro progress resolved position error reaches undecodable
    rw [validate, reaches.checkEvents undecodable.checkEvent]
    rfl
  refine ⟨⟨?_, ?_⟩, ends⟩
  · intro verdict progress resolved position error reaches undecodable
    have result := ends progress resolved position error reaches undecodable
    rcases verdict with accepted | ⟨cause, rejected⟩
    · rw [result] at accepted
      cases accepted
    · rw [result] at rejected
      exact undecodable.not_isViolation ⟨cause, Except.error.inj rejected⟩
  · intro decodes
    cases result : validate resolver settings schema document with
    | ok value => exact Or.inl rfl
    | error error =>
      rcases validate_error serves result with
        ⟨cause, rfl⟩ | ⟨progress, resolved, position, reaches, undecodable⟩
      · exact Or.inr ⟨cause, rfl⟩
      · exact absurd undecodable (decodes progress resolved position error reaches)

end

/-! ## Documents with a verdict and without -/

theorem servesText_embedded : ServesText Resolver.embedded := by
  intro location
  refine ⟨_, rfl, fun document served => ?_⟩
  obtain ⟨text, -, rfl⟩ := Option.map_eq_some_iff.mp served
  exact ⟨text, decodeUtf8_encodeUtf8 text⟩

/-- A graph document with this markup in its root. -/
def rootedDocument (markup : List String) : Bytes :=
  (["<graphml xmlns=\"", "http://graphml.", "graphdrawing.org/xmlns", "\">"] ++ markup ++
    ["</graphml>"]).flatMap bytesOf

/-- A graph that lacks an attribute is a violation, and the pass to it comes to nothing that cannot
be decoded. -/
theorem decodes_bareGraph :
    ServesText Resolver.embedded ∧
      validate Resolver.embedded {} graphSchema (rootedDocument ["<graph/>"]) =
        .error (.validation (.violation (.missingAttribute "graph" "edgedefault") 55)) ∧
      ∀ progress resolved position error,
        Reaches Resolver.embedded {} graphSchema {} (Markup.read (rootedDocument ["<graph/>"]))
            progress resolved position →
          ¬Undecodable {} graphSchema progress position resolved error := by
  have rejected : validate Resolver.embedded {} graphSchema (rootedDocument ["<graph/>"]) =
      .error (.validation (.violation (.missingAttribute "graph" "edgedefault") 55)) := by
    decide +kernel
  exact ⟨servesText_embedded, rejected,
    (validate_isVerdict_iff servesText_embedded {} graphSchema _).1.mp (Or.inr ⟨_, rejected⟩)⟩

/-- A reference to an unknown name is reported as such, and not as a violation. -/
theorem validate_unknownReference :
    validate Resolver.embedded {} graphSchema
        (rootedDocument ["<desc>", "&nope;", "</desc>"]) =
      .error (.markup (.escape (.unknownName 1 5 "nope"))) := by
  decide +kernel

end GraphMarkup.Validation
