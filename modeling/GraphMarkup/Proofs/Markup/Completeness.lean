import GraphMarkup.Proofs.Markup.Forest

/-!
# Complete documents

A document is complete if it can be read to its end and no element is open
there. The complete documents are exactly those that have a tree: every end tag
matches the innermost open element, and its name resolves as it did at the
beginning of the element. Any other document that can be read to its end has a
tree once the end tags that are missing are added.
-/

namespace GraphMarkup.Markup

open GraphMarkup.Text

/-- Reading comes to the end of the document, where all of the `depth` elements that
are open are closed. -/
def Closes (depth : Nat) : Trace Resolved → Prop
  | .ended => depth = 0
  | .failed .. => False
  | .item resolved _ rest =>
      match resolved.event with
      | .opening _ => Closes (depth + 1) rest
      | .closing _ => Closes (depth - 1) rest
      | _ => Closes depth rest

/-- A document that is read to its end and leaves no element open. -/
def Complete (document : Bytes) : Prop :=
  Closes 0 (read document)

/-- Only an end tag of the innermost open element is scanned without an error. -/
theorem eq_cons_of_scanClosing_eq_ok {opened : List Bytes} {input rest : Bytes} {event : Event}
    {size : Nat} (scanned : scanClosing opened input = ⟨.ok event, size, rest⟩) :
    ∃ name others, event = .closing name ∧ opened = name :: others := by
  unfold scanClosing at scanned
  split at scanned
  · cases scanned
  · cases opened with
    | nil => cases scanned
    | cons expected others =>
      dsimp only at scanned
      split at scanned
      · rename_i same
        cases scanned
        exact ⟨_, others, rfl, by rw [same]⟩
      · cases scanned

theorem scanTag_ne_closing {input rest name : Bytes} {size : Nat} :
    scanTag input ≠ ⟨.ok (.closing name), size, rest⟩ := by
  intro scanned
  unfold scanTag at scanned
  split at scanned
  · cases scanned
  · dsimp only at scanned
    split at scanned <;> cases scanned

theorem scanCData_ne_closing {input rest name : Bytes} {size : Nat} :
    scanCData input ≠ ⟨.ok (.closing name), size, rest⟩ := by
  intro scanned
  unfold scanCData at scanned
  split at scanned
  · cases scanned
  · dsimp only at scanned
    split at scanned <;> cases scanned

theorem scanComment_ne_closing {input rest name : Bytes} {size : Nat} :
    scanComment input ≠ ⟨.ok (.closing name), size, rest⟩ := by
  intro scanned
  unfold scanComment at scanned
  split at scanned
  · cases scanned
  · dsimp only at scanned
    split at scanned <;> cases scanned

theorem scanDoctype_ne_closing {input rest name : Bytes} {size : Nat} :
    scanDoctype input ≠ ⟨.ok (.closing name), size, rest⟩ := by
  intro scanned
  unfold scanDoctype at scanned
  split at scanned
  · cases scanned
  · dsimp only at scanned
    split at scanned
    · split at scanned <;> cases scanned
    · cases scanned

theorem scanInstruction_ne_closing {input rest name : Bytes} {size : Nat} :
    scanInstruction input ≠ ⟨.ok (.closing name), size, rest⟩ := by
  intro scanned
  unfold scanInstruction at scanned
  split at scanned <;> cases scanned

namespace Scanned

theorem eq_of_behind_eq {scanned : Scanned} {count size : Nat} {rest : Bytes}
    {result : Except MarkupError Event} (same : scanned.behind count = ⟨result, size, rest⟩) :
    ∃ size, scanned = ⟨result, size, rest⟩ := by
  rcases scanned with ⟨result', size', rest'⟩
  cases same
  exact ⟨size', rfl⟩

end Scanned

/-- Scanned markup closes no element but the innermost open one. -/
theorem eq_cons_of_scanMarkup_eq_closing {opened : List Bytes} {input rest name : Bytes}
    {size : Nat} (scanned : scanMarkup opened input = ⟨.ok (.closing name), size, rest⟩) :
    ∃ others, opened = name :: others := by
  unfold scanMarkup at scanned
  split at scanned
  · cases scanned
  split at scanned
  · split at scanned
    · cases scanned
    split at scanned
    · rcases Scanned.eq_of_behind_eq scanned with ⟨_, scanned⟩
      exact absurd scanned scanCData_ne_closing
    split at scanned
    · rcases Scanned.eq_of_behind_eq scanned with ⟨_, scanned⟩
      exact absurd scanned scanComment_ne_closing
    split at scanned
    · rcases Scanned.eq_of_behind_eq scanned with ⟨_, scanned⟩
      exact absurd scanned scanDoctype_ne_closing
    · cases scanned
  split at scanned
  · rcases Scanned.eq_of_behind_eq scanned with ⟨_, scanned⟩
    rcases eq_cons_of_scanClosing_eq_ok scanned with ⟨_, others, same, opened⟩
    cases same
    exact ⟨others, opened⟩
  split at scanned
  · exact absurd scanned scanInstruction_ne_closing
  · exact absurd scanned scanTag_ne_closing

/-- Scanning on from a place that is not the end fails there, or yields an event
in front of the events of a shorter input. -/
theorem scanFrom_cons (start : Nat) (opened : List Bytes) (first : UInt8) (rest : Bytes) :
    (∃ error stop, scanFrom start opened (first :: rest) = .failed error start stop) ∨
      ∃ event start' rest',
        scanFrom start opened (first :: rest) =
          .item event start (scanFrom start' (openedAfter opened event) rest') ∧
        rest'.length ≤ rest.length ∧
        ∀ name, event = .closing name → ∃ others, opened = name :: others := by
  rw [scanFrom]
  split
  · have exhausts := scanMarkup_exhausts opened rest
    split
    · exact .inl ⟨_, _, rfl⟩
    · rename_i event size rest' scanned
      rw [scanned, Scanned.Exhausts] at exhausts
      refine .inr ⟨event, _, rest', rfl, by dsimp only at exhausts; omega, ?_⟩
      rintro name rfl
      exact eq_cons_of_scanMarkup_eq_closing scanned
  · refine .inr ⟨_, _, _, rfl, length_dropWhile_le _ _, ?_⟩
    intro name same
    cases same

/-! ## Missing end tags -/

/-- The end tags of the open elements, the innermost first, as they resolve there. -/
def endTags (scope : Scope) (outer : List Scope) : List Bytes → List Resolved
  | [] => []
  | name :: opened =>
      ⟨scope.resolve name, .closing name⟩ :: endTags (outer.headD scope) outer.tail opened

/-- Every end tag in a trace is the one that is expected there, and only names of elements are
resolved. -/
def Nested (expected : List Resolved) : Trace Resolved → Prop
  | .ended => True
  | .failed .. => True
  | .item resolved _ rest =>
      match resolved.event with
      | .opening tag => Nested (⟨resolved.resolution, .closing tag.name⟩ :: expected) rest
      | .closing _ => ∃ others, expected = resolved :: others ∧ Nested others rest
      | .empty _ => Nested expected rest
      | _ => resolved.resolution = .unbound ∧ Nested expected rest

/-- The end tags that are missing where a trace ends, if it does not fail. -/
def missingTags? (expected : List Resolved) : Trace Resolved → Option (List Resolved)
  | .ended => some expected
  | .failed .. => none
  | .item resolved _ rest =>
      match resolved.event with
      | .opening tag => missingTags? (⟨resolved.resolution, .closing tag.name⟩ :: expected) rest
      | .closing _ => missingTags? expected.tail rest
      | _ => missingTags? expected rest

/-- A trace with other items behind its end. Where these would stand is of no account. -/
def Trace.followedBy {α : Type} (items : List α) : Trace α → Trace α
  | .ended => items.foldr (fun value rest => .item value 0 rest) .ended
  | .failed error start stop => .failed error start stop
  | .item value start rest => .item value start (rest.followedBy items)

/-- The elements in a document are nested. -/
theorem nested_resolveFrom (start : Nat) (opened : List Bytes) (input : Bytes) (scope : Scope)
    (outer : List Scope) :
    Nested (endTags scope outer opened)
      (resolveFrom scope outer (scanFrom start opened input)) := by
  induction length : input.length using Nat.strongRecOn
    generalizing start opened input scope outer with
  | ind bound ih =>
    subst length
    cases input with
    | nil =>
      rw [scanFrom]
      trivial
    | cons first rest =>
      rcases scanFrom_cons start opened first rest with
        ⟨error, stop, failed⟩ | ⟨event, start', rest', scanned, shorter, matching⟩
      · rw [failed]
        trivial
      · have shorter : rest'.length < (first :: rest).length := by
          rw [List.length_cons]
          omega
        have behind := fun opened scope outer =>
          ih _ shorter start' opened rest' scope outer rfl
        rw [scanned]
        cases event with
        | opening tag =>
          rw [resolveFrom]
          cases scope.enter tag with
          | error cause => trivial
          | ok inner => exact behind (tag.name :: opened) inner (scope :: outer)
        | empty tag =>
          rw [resolveFrom]
          cases scope.enter tag with
          | error cause => trivial
          | ok inner => exact behind opened scope outer
        | closing name =>
          obtain ⟨others, rfl⟩ := matching name rfl
          exact ⟨_, rfl, behind others (outer.headD scope) outer.tail⟩
        | text _ | cdata _ | comment _ | instruction _ | doctype _ =>
          exact ⟨rfl, behind opened scope outer⟩

/-- A trace closes as many elements as end tags are expected if none is missing. -/
theorem closes_length_iff (trace : Trace Resolved) (expected : List Resolved) :
    Closes expected.length trace ↔ missingTags? expected trace = some [] := by
  induction trace generalizing expected with
  | ended => simp [Closes, missingTags?]
  | failed error start stop => simp [Closes, missingTags?]
  | item resolved start rest ih =>
    rw [Closes, missingTags?]
    cases resolved.event with
    | opening tag => exact ih (_ :: expected)
    | closing name =>
      rw [← List.length_tail]
      exact ih expected.tail
    | _ => exact ih expected

/-- What is left of a trace when all elements but those with the expected end tags are closed:
the first of these tags, and a shorter trace that closes the others. -/
def EndsContent (limit : Nat) (last : Trace Resolved) : List Resolved → Prop
  | [] => last = .ended
  | tag :: expected =>
      ∃ stop rest, last = .item tag stop rest ∧ rest.length < limit ∧ Nested expected rest ∧
        missingTags? expected rest = some []

theorem EndsContent.mono {limit limit' : Nat} {last : Trace Resolved} {expected : List Resolved}
    (ends : EndsContent limit last expected) (less : limit ≤ limit') :
    EndsContent limit' last expected := by
  cases expected with
  | nil => exact ends
  | cons tag expected =>
    obtain ⟨stop, rest, same, shorter, closed⟩ := ends
    exact ⟨stop, rest, same, Nat.lt_of_lt_of_le shorter less, closed⟩

/-- The events up to the end of the innermost open element are those of a forest. -/
theorem exists_reads_of_nested {trace : Trace Resolved} {expected : List Resolved}
    (nested : Nested expected trace) (closed : missingTags? expected trace = some []) :
    ∃ nodes last, Reads trace nodes last ∧ EndsContent trace.length last expected := by
  -- What is left behind an element is shorter than the trace, but no part of it.
  induction length : trace.length using Nat.strongRecOn generalizing trace expected with
  | ind bound ih =>
    subst length
    cases trace with
    | ended =>
      cases closed
      exact ⟨[], .ended, .nil _, rfl⟩
    | failed error start stop => cases closed
    | item resolved start rest =>
      rcases resolved with ⟨resolution, event⟩
      have shorter : rest.length < (Trace.item ⟨resolution, event⟩ start rest).length :=
        Nat.lt_succ_self _
      -- Behind a leaf or an empty element the content goes on.
      have extend {node : Node} (nested : Nested expected rest)
          (closed : missingTags? expected rest = some [])
          (cons : ∀ {nodes last}, Reads rest nodes last →
            Reads (.item ⟨resolution, event⟩ start rest) (node :: nodes) last) :
          ∃ nodes last, Reads (.item ⟨resolution, event⟩ start rest) nodes last ∧
            EndsContent (Trace.item (⟨resolution, event⟩ : Resolved) start rest).length last
              expected := by
        obtain ⟨nodes, last, reads, ends⟩ := ih _ shorter nested closed rfl
        exact ⟨node :: nodes, last, cons reads, ends.mono (Nat.le_of_lt shorter)⟩
      cases event with
      | opening tag =>
        have nested : Nested (⟨resolution, .closing tag.name⟩ :: expected) rest := nested
        obtain ⟨children, last, inside, stop, behind, rfl, shorter', nested', closed'⟩ :=
          ih _ shorter nested closed rfl
        obtain ⟨nodes, last, reads, ends⟩ :=
          ih _ (Nat.lt_trans shorter' shorter) nested' closed' rfl
        exact ⟨.element ⟨tag, resolution⟩ children :: nodes, last, .of_opening inside reads,
          ends.mono (Nat.le_of_lt (Nat.lt_trans shorter' shorter))⟩
      | empty tag => exact extend nested closed .of_empty
      | closing name =>
        obtain ⟨others, rfl, nested⟩ := nested
        exact ⟨[], _, .nil _, start, rest, rfl, shorter, nested, closed⟩
      | text _ | cdata _ | comment _ | instruction _ | doctype _ =>
        obtain ⟨rfl, nested⟩ := nested
        exact extend nested closed (.leaf rfl)

/-- What stands behind a forest closes as many elements as what begins with it. -/
theorem closes_iff_of_reads {trace last : Trace Resolved} {nodes : List Node}
    (reads : Reads trace nodes last) (depth : Nat) : Closes depth trace ↔ Closes depth last := by
  induction reads generalizing depth with
  | nil => exact Iff.rfl
  | @leaf event _ _ _ _ isLeaf _ ih =>
    rw [← ih depth]
    cases event <;> first | exact Iff.rfl | cases isLeaf
  | empty _ ih => exact ih depth
  | element _ _ insideIh behindIh =>
    rw [← behindIh depth]
    exact insideIh (depth + 1)

/-- A complete document has no end tags missing. -/
theorem complete_iff_missingTags? {document : Bytes} :
    Complete document ↔ missingTags? [] (read document) = some [] :=
  closes_length_iff (read document) []

/-- The complete documents are those that have a tree. -/
theorem complete_iff_exists_describes {document : Bytes} :
    Complete document ↔ ∃ nodes, Describes document nodes := by
  constructor
  · intro complete
    have nested := nested_resolveFrom 0 [] (withoutByteOrderMark document) Scope.initial []
    have closed := complete_iff_missingTags?.mp complete
    obtain ⟨nodes, last, reads, rfl⟩ := exists_reads_of_nested nested closed
    exact ⟨nodes, reads⟩
  · rintro ⟨nodes, reads⟩
    exact (closes_iff_of_reads reads 0).mpr rfl

/-! ## Adding the missing end tags -/

/-- An event is the end tag of an element. -/
def Resolved.IsEndTag (resolved : Resolved) : Prop :=
  ∃ name, resolved.event = .closing name

/-- What is missing is end tags, if these are expected. -/
theorem isEndTag_of_missingTags? {trace : Trace Resolved} {expected missing : List Resolved}
    (tags : ∀ tag ∈ expected, tag.IsEndTag) (ends : missingTags? expected trace = some missing) :
    ∀ tag ∈ missing, tag.IsEndTag := by
  induction trace generalizing expected with
  | ended =>
    cases ends
    exact tags
  | failed error start stop => cases ends
  | item resolved start rest ih =>
    rcases resolved with ⟨resolution, event⟩
    cases event with
    | opening tag =>
      exact ih (List.forall_mem_cons.mpr ⟨⟨tag.name, rfl⟩, tags⟩) ends
    | closing name => exact ih (fun tag member => tags tag (List.mem_of_mem_tail member)) ends
    | _ => exact ih tags ends

/-- End tags that are expected close all elements. -/
theorem closed_endTags {tags : List Resolved} (areTags : ∀ tag ∈ tags, tag.IsEndTag) :
    Nested tags (Trace.followedBy tags .ended) ∧
      missingTags? tags (Trace.followedBy tags .ended) = some [] := by
  induction tags with
  | nil => exact ⟨trivial, rfl⟩
  | cons tag tags ih =>
    obtain ⟨⟨name, closing⟩, others⟩ := List.forall_mem_cons.mp areTags
    rcases tag with ⟨resolution, event⟩
    cases closing
    obtain ⟨nested, closed⟩ := ih others
    exact ⟨⟨tags, rfl, nested⟩, closed⟩

/-- With the missing end tags behind it a trace closes all elements. -/
theorem closed_followedBy {trace : Trace Resolved} {expected missing : List Resolved}
    (tags : ∀ tag ∈ expected, tag.IsEndTag) (nested : Nested expected trace)
    (ends : missingTags? expected trace = some missing) :
    Nested expected (trace.followedBy missing) ∧
      missingTags? expected (trace.followedBy missing) = some [] := by
  induction trace generalizing expected with
  | ended =>
    cases ends
    exact closed_endTags tags
  | failed error start stop => cases ends
  | item resolved start rest ih =>
    rcases resolved with ⟨resolution, event⟩
    cases event with
    | opening tag =>
      have tags' : ∀ tag' ∈ (⟨resolution, .closing tag.name⟩ : Resolved) :: expected,
          tag'.IsEndTag :=
        List.forall_mem_cons.mpr ⟨⟨tag.name, rfl⟩, tags⟩
      exact ih tags' nested ends
    | closing name =>
      obtain ⟨others, rfl, nested⟩ := nested
      obtain ⟨nested, closed⟩ := ih (List.forall_mem_cons.mp tags).2 nested ends
      exact ⟨⟨others, rfl, nested⟩, closed⟩
    | empty tag => exact ih tags nested ends
    | text _ | cdata _ | comment _ | instruction _ | doctype _ =>
      obtain ⟨nested', closed⟩ := ih tags nested.2 ends
      exact ⟨⟨nested.1, nested'⟩, closed⟩

/-- A document that is read to its end has a tree once its missing end tags are added. -/
theorem exists_reads_followedBy {document : Bytes} {missing : List Resolved}
    (ends : missingTags? [] (read document) = some missing) :
    (∀ tag ∈ missing, tag.IsEndTag) ∧
      ∃ nodes, Reads ((read document).followedBy missing) nodes .ended := by
  have none : ∀ tag ∈ ([] : List Resolved), tag.IsEndTag := by
    intro tag member
    cases member
  have nested : Nested [] (read document) :=
    nested_resolveFrom 0 [] (withoutByteOrderMark document) Scope.initial []
  obtain ⟨nested, closed⟩ := closed_followedBy none nested ends
  obtain ⟨nodes, last, reads, rfl⟩ := exists_reads_of_nested nested closed
  exact ⟨isEndTag_of_missingTags? none ends, nodes, reads⟩

end GraphMarkup.Markup
