import GraphMarkup.Proofs.Document.ReadingGraph
import GraphMarkup.Proofs.Markup.Completeness
import GraphMarkup.Proofs.Result
import GraphMarkup.Sample.Roads

/-!
# Reading documents that are not closed

Where a document ends inside a child of its graph element, whatever reads that child
fails. The graph element itself and the elements around it need no end tags: each loop
reads past the elements that it has begun and looks at nothing behind them, so missing
end tags make no difference to a document that is read.
-/

namespace GraphMarkup.Document

open GraphMarkup.Attributes
open GraphMarkup.Graph
open GraphMarkup.Markup
open GraphMarkup.Text

/-! ## Where the input ends -/

/-- How many elements are open inside an element when the input ends, `depth` of them already.
Nothing if the element is closed before or if markup cannot be read. -/
def openInside? (depth : Nat) : Trace Resolved → Option Nat
  | .ended => some depth
  | .failed .. => none
  | .item resolved _ rest =>
      match resolved.event with
      | .opening _ => openInside? (depth + 1) rest
      | .closing _ => if depth = 0 then none else openInside? (depth - 1) rest
      | _ => openInside? depth rest

/-- How many elements are open inside the graph element when the input ends. Nothing if there is
no such element or if it is not open any more. -/
def openInGraph? (trace : Trace Resolved) : Option Nat :=
  match findRoot trace with
  | .error _ => none
  | .ok (namespace?, behind) =>
      match findGraph namespace? behind with
      | .ok (false, content) => openInside? 0 content
      | _ => none

section

variable {resolved : Resolved} {depth start : Nat} {rest : Trace Resolved}

theorem openInside?_closing {name : Bytes} (closing : resolved.event = .closing name) :
    openInside? (depth + 1) (.item resolved start rest) = openInside? depth rest := by
  rw [openInside?, closing]
  rfl

/-- An event that is read as a tag, an end tag or a leaf is one. -/
theorem event_of_contentOf {content : Content} (read : contentOf resolved = .ok content) :
    match content with
    | .opening tag _ isEmpty => resolved.event = tagEvent tag isEmpty
    | .closing => ∃ name, resolved.event = .closing name
    | .text _ => resolved.event.isLeaf
    | .other => resolved.event.isLeaf := by
  rcases resolved with ⟨resolution, event⟩
  simp only [contentOf, bind_eq_ok_iff] at read
  obtain ⟨_, -, read⟩ := read
  cases event <;> cases content <;> simp_all [tagEvent, Event.isLeaf]

/-- A tag that is read belongs to an element whose end tag can be read. -/
theorem contentOf_closing_of_opening {tag : Tag} {namespace? : Option Bytes} {isEmpty : Bool}
    (content : contentOf resolved = .ok (.opening tag namespace? isEmpty)) (name : Bytes) :
    contentOf ⟨resolved.resolution, .closing name⟩ = .ok .closing := by
  simp only [contentOf, bind_eq_ok_iff] at content ⊢
  obtain ⟨declared, known, -⟩ := content
  exact ⟨declared, known, rfl⟩

/-- A tag opens an element unless this is empty. -/
theorem openInside?_tagEvent {tag : Tag} {isEmpty : Bool}
    (opening : resolved.event = tagEvent tag isEmpty) :
    openInside? depth (.item resolved start rest) =
      openInside? (depth + if isEmpty then 0 else 1) rest := by
  rw [openInside?, opening]
  cases isEmpty <;> rfl

/-- A leaf opens and closes nothing. -/
theorem openInside?_leaf (isLeaf : resolved.event.isLeaf) :
    openInside? depth (.item resolved start rest) = openInside? depth rest := by
  rw [openInside?]
  cases event : resolved.event <;> simp_all [Event.isLeaf]

theorem missingTags?_tagEvent {tag : Tag} {isEmpty : Bool}
    (opening : resolved.event = tagEvent tag isEmpty) (expected : List Resolved) :
    missingTags? expected (.item resolved start rest) =
      missingTags? (if isEmpty then expected
        else ⟨resolved.resolution, .closing tag.name⟩ :: expected) rest := by
  rw [missingTags?, opening]
  cases isEmpty <;> rfl

theorem missingTags?_leaf (isLeaf : resolved.event.isLeaf) (expected : List Resolved) :
    missingTags? expected (.item resolved start rest) = missingTags? expected rest := by
  rw [missingTags?]
  cases event : resolved.event <;> simp_all [Event.isLeaf]

end

/-! ## Reading elements to their ends -/

/-- Leave out the rest of `depth` elements that are open. -/
def skipOpen : Nat → Trace Resolved → Except Error (Trace Resolved)
  | 0, trace => .ok trace
  | depth + 1, trace => skip depth trace

/-- The elements around those that are left out are left out behind them. -/
theorem skip_add {depth : Nat} {trace rest : Trace Resolved} (skipped : skip depth trace = .ok rest)
    (outer : Nat) : skipOpen (outer + (depth + 1)) trace = skipOpen outer rest := by
  change skip (outer + depth) trace = skipOpen outer rest
  fun_induction skip depth trace with
  | case1 => cases skipped
  | case2 => cases skipped
  | case3 depth resolved start behind tag opening ih =>
    simp only [skip, opening]
    exact ih skipped
  | case4 resolved start behind name closing =>
    cases skipped
    cases outer <;> simp only [skip, closing, skipOpen]
  | case5 resolved start behind name closing depth ih =>
    rw [← ih skipped]
    change skip (outer + depth + 1) _ = _
    simp only [skip, closing]
  | case6 depth resolved start behind notOpening notClosing ih =>
    rw [← ih skipped, skip.eq_def]
    dsimp only
    split
    · exact absurd ‹_› (notOpening _)
    · exact absurd ‹_› (notClosing _)
    · rfl

/-- Reading gets past `depth` elements that are open, to what stands behind them, and does not look
any further. -/
structure ReadsPast {R : Type} (depth : Nat) (read : Trace Resolved → Except Error R)
    (result : Trace Resolved → R) (trace rest : Trace Resolved) : Prop where
  skips : skipOpen depth trace = .ok rest
  closes : ∀ outer, openInside? (outer + depth) trace = openInside? outer rest
  misses : ∀ expected, missingTags? expected trace = missingTags? (expected.drop depth) rest
  further : ∀ tags, read (trace.followedBy tags) = .ok (result (rest.followedBy tags))

namespace ReadsPast

variable {R S : Type} {depth depth' start : Nat} {first : Trace Resolved → Except Error R}
  {second : Trace Resolved → Except Error S} {result : Trace Resolved → R}
  {result' : Trace Resolved → S} {resolved : Resolved} {trace middle last : Trace Resolved}

/-- Nothing is read. -/
theorem refl (trace : Trace Resolved) (result : Trace Resolved → R) :
    ReadsPast 0 (fun behind => .ok (result behind)) result trace trace :=
  ⟨rfl, fun _ => rfl, fun _ => rfl, fun _ => rfl⟩

/-- Reading goes on behind what was read first. -/
theorem bind {next : R → Except Error S} (past : ReadsPast depth first result trace middle)
    (past' : ReadsPast depth' (fun behind => next (result behind)) result' middle last) :
    ReadsPast (depth' + depth) (fun trace => first trace >>= next) result' trace last where
  skips := by
    have skipped := past.skips
    cases depth with
    | zero =>
      cases skipped
      exact past'.skips
    | succ depth => exact (skip_add skipped depth').trans past'.skips
  closes outer := by
    rw [← Nat.add_assoc, past.closes, past'.closes]
  misses expected := by
    rw [past.misses, past'.misses, List.drop_drop, Nat.add_comm]
  further tags := by
    rw [past.further]
    exact past'.further tags

/-- What is read is all that a result depends on. -/
theorem imp (past : ReadsPast depth first result trace last)
    (next : ∀ more behind, first more = .ok (result behind) → second more = .ok (result' behind)) :
    ReadsPast depth second result' trace last where
  skips := past.skips
  closes := past.closes
  misses := past.misses
  further tags := next _ _ (past.further tags)

/-- Reading goes on behind the start tag of an element. -/
theorem tag {tag : Tag} {isEmpty : Bool} {whole : Trace Resolved → Except Error R}
    (event : resolved.event = tagEvent tag isEmpty)
    (past : ReadsPast (depth + 1 + if isEmpty then 0 else 1) first result middle last)
    (next : ∀ behind, whole (.item resolved start behind) = first behind) :
    ReadsPast (depth + 1) whole result (.item resolved start middle) last where
  skips := by
    rw [← past.skips]
    cases isEmpty <;> simp only [skipOpen, skip, event, tagEvent] <;> rfl
  closes outer := by
    rw [openInside?_tagEvent event, Nat.add_assoc, past.closes]
  misses expected := by
    rw [missingTags?_tagEvent event, past.misses]
    cases isEmpty <;> rfl
  further tags := by
    rw [Trace.followedBy, next, past.further]

/-- Reading goes on behind a leaf. -/
theorem leaf {whole : Trace Resolved → Except Error R} (isLeaf : resolved.event.isLeaf)
    (past : ReadsPast (depth + 1) first result middle last)
    (next : ∀ behind, whole (.item resolved start behind) = first behind) :
    ReadsPast (depth + 1) whole result (.item resolved start middle) last where
  skips := by
    rw [← past.skips, skipOpen, skipOpen, skip.eq_def]
    cases event : resolved.event <;> simp_all [Event.isLeaf]
  closes outer := by
    rw [openInside?_leaf isLeaf, past.closes]
  misses expected := by
    rw [missingTags?_leaf isLeaf, past.misses]
  further tags := by
    rw [Trace.followedBy, next, past.further]

/-- Reading goes on behind the end tag of an element. -/
theorem closing {name : Bytes} {whole : Trace Resolved → Except Error R}
    (event : resolved.event = .closing name)
    (past : ReadsPast depth first result middle last)
    (next : ∀ behind, whole (.item resolved start behind) = first behind) :
    ReadsPast (depth + 1) whole result (.item resolved start middle) last where
  skips := by
    rw [← past.skips, skipOpen, skip.eq_def]
    simp only [event]
    cases depth <;> rfl
  closes outer := by
    rw [← Nat.add_assoc, openInside?_closing event, past.closes]
  misses expected := by
    rw [missingTags?, event]
    dsimp only
    rw [past.misses, List.drop_tail]
  further tags := by
    rw [Trace.followedBy, next, past.further]

/-- Reading gets past an element and goes on behind it. -/
theorem opening {tag : Tag} {found? : Option Bytes} {isEmpty : Bool}
    (opening : contentOf resolved = .ok (.opening tag found? isEmpty))
    {whole : Trace Resolved → Except Error S} {next : R → Except Error S}
    {content : Trace Resolved}
    (past : ReadsPast (if isEmpty then 0 else 1) first result content middle)
    (reads : ∀ behind, whole (.item resolved start behind) = first behind >>= next)
    (past' : ReadsPast (depth + 1) (fun behind => next (result behind)) result' middle last) :
    ReadsPast (depth + 1) whole result' (.item resolved start content) last :=
  .tag (event_of_contentOf opening) (past.bind past') reads

end ReadsPast

theorem skip_readsPast {depth : Nat} {trace rest : Trace Resolved}
    (skipped : skip depth trace = .ok rest) :
    ReadsPast (depth + 1) (skip depth) id trace rest := by
  fun_induction skip depth trace with
  | case1 => cases skipped
  | case2 => cases skipped
  | case3 depth resolved start rest' tag opening ih =>
    have event : resolved.event = tagEvent tag false := opening
    refine .tag event (ih skipped) fun behind => ?_
    simp only [skip, opening]
  | case4 resolved start rest' name closing =>
    cases skipped
    apply ReadsPast.closing closing (.refl rest id)
    intro behind
    simp only [skip, closing]
    rfl
  | case5 resolved start rest' name closing depth ih =>
    apply ReadsPast.closing closing (ih skipped)
    intro behind
    simp only [skip, closing]
  | case6 depth resolved start rest' notOpening notClosing ih =>
    have step : ∀ behind, skip depth (.item resolved start behind) = skip depth behind := by
      intro behind
      rw [skip.eq_def]
      dsimp only
      split
      · exact absurd ‹_› (notOpening _)
      · exact absurd ‹_› (notClosing _)
      · rfl
    cases event : resolved.event with
    | opening tag => exact absurd event (notOpening tag)
    | closing name => exact absurd event (notClosing name)
    | empty tag =>
      have event : resolved.event = tagEvent tag true := event
      exact .tag event (ih skipped) step
    | text _ | cdata _ | comment _ | instruction _ | doctype _ =>
      exact .leaf (by rw [event]; rfl) (ih skipped) step

/-- The rest of an element that is left out. -/
def leaveOut (isEmpty : Bool) (content : Trace Resolved) : Except Error (Trace Resolved) :=
  if isEmpty then .ok content else skip 0 content

/-- Leaving out an element gets past it. -/
theorem leaveOut_readsPast {isEmpty : Bool} {content rest : Trace Resolved}
    (left : leaveOut isEmpty content = .ok rest) :
    ReadsPast (if isEmpty then 0 else 1) (leaveOut isEmpty) id content rest := by
  cases isEmpty with
  | true =>
    cases left
    exact .refl _ _
  | false => exact skip_readsPast left

theorem collectText_item_opening {resolved : Resolved} {tag : Tag} {found? : Option Bytes}
    {isEmpty : Bool} (opening : contentOf resolved = .ok (.opening tag found? isEmpty))
    (collected : String) (start : Nat) (content : Trace Resolved) :
    collectText collected (.item resolved start content) =
      leaveOut isEmpty content >>= collectText collected := by
  rw [collectText]
  simp only [opening]
  cases isEmpty with
  | true => rfl
  | false =>
    rw [leaveOut, if_neg Bool.false_ne_true]
    cases skip 0 content <;> rfl

/-- Collecting character data gets past an element. -/
theorem collectText_readsPast {collected text : String} {trace rest : Trace Resolved}
    (read : collectText collected trace = .ok (text, rest)) :
    ReadsPast 1 (collectText collected) (text, ·) trace rest := by
  fun_induction collectText collected trace with
  | case1 => cases read
  | case2 => cases read
  | case3 => cases read
  | case4 => cases read
  | case5 collected resolved start content tag found? opening middle skipped ih =>
    have left : leaveOut false content = .ok middle := skipped
    exact .opening opening (leaveOut_readsPast left)
      (collectText_item_opening opening collected start) (ih read)
  | case6 collected resolved start content tag found? opening ih =>
    have left : leaveOut true content = .ok content := rfl
    exact .opening opening (leaveOut_readsPast left)
      (collectText_item_opening opening collected start) (ih read)
  | case7 collected resolved start rest' closing =>
    cases read
    obtain ⟨name, event⟩ := event_of_contentOf closing
    apply ReadsPast.closing event (.refl rest _)
    intro behind
    rw [collectText]
    simp only [closing]
  | case8 collected resolved start rest' chunk leaf ih =>
    apply ReadsPast.leaf (event_of_contentOf leaf) (ih read)
    intro behind
    rw [collectText]
    simp only [leaf]
  | case9 collected resolved start rest' leaf ih =>
    apply ReadsPast.leaf (event_of_contentOf leaf) (ih read)
    intro behind
    rw [collectText]
    simp only [leaf]

/-- Reading the text of an element gets past it. -/
theorem elementText_readsPast {isEmpty : Bool} {text : String} {content rest : Trace Resolved}
    (read : elementText isEmpty content = .ok (text, rest)) :
    ReadsPast (if isEmpty then 0 else 1) (elementText isEmpty) (text, ·) content rest := by
  cases isEmpty with
  | true =>
    cases read
    exact .refl _ _
  | false => exact collectText_readsPast read

section

variable {α : Type} {namespace? : Option Bytes} {codec : Codec α} {element : String}
  {owner owner' : α} {tag : Tag} {isEmpty : Bool} {trace rest : Trace Resolved}

/-- Reading a data element gets past it. -/
theorem readDataElement_readsPast
    (read : readDataElement codec owner tag isEmpty trace = .ok (owner', rest)) :
    ReadsPast (if isEmpty then 0 else 1) (readDataElement codec owner tag isEmpty) (owner', ·)
      trace rest := by
  simp only [readDataElement, bind_eq_ok_iff, pure_eq_ok_iff] at read
  obtain ⟨key, keyed, ⟨text, behind⟩, collected, owner', set, ⟨⟩⟩ := read
  apply (elementText_readsPast collected).imp
  intro more behind collected
  simp only [readDataElement, bind_eq_ok_iff, pure_eq_ok_iff]
  exact ⟨key, keyed, (text, behind), collected, owner', set, rfl⟩

/-- Reading data leaves out an element that is no data. -/
theorem readData_item_other {resolved : Resolved} {found? : Option Bytes}
    (opening : contentOf resolved = .ok (.opening tag found? isEmpty))
    (other : ¬(found? = namespace? ∧ hasName tag ElementName.data)) (owner : α) (start : Nat)
    (content : Trace Resolved) :
    readData namespace? codec element owner (.item resolved start content) =
      leaveOut isEmpty content >>= readData namespace? codec element owner := by
  rw [readData_item_opening namespace? codec element opening, if_neg other, leaveOut]

/-- Reading the data of an element gets past it. -/
theorem readData_readsPast
    (read : readData namespace? codec element owner trace = .ok (owner', rest)) :
    ReadsPast 1 (readData namespace? codec element owner) (owner', ·) trace rest := by
  fun_induction readData namespace? codec element owner trace with
  | case1 => cases read
  | case2 => cases read
  | case3 => cases read
  | case4 => cases read
  | case5 owner resolved start content tag found? isEmpty opening named middle behind first ih =>
    have step := readData_item_opening namespace? codec element opening owner start
    simp only [if_pos named] at step
    exact .opening opening (readDataElement_readsPast first) step (ih read)
  | case6 owner resolved start content tag found? other opening ih =>
    have left : leaveOut true content = .ok content := rfl
    exact .opening opening (leaveOut_readsPast left)
      (readData_item_other opening other owner start) (ih read)
  | case7 => cases read
  | case8 owner resolved start content tag found? isEmpty opening other open_ middle skipped ih =>
    have left : leaveOut isEmpty content = .ok middle := by
      rw [leaveOut, if_neg open_]
      exact skipped
    exact .opening opening (leaveOut_readsPast left)
      (readData_item_other opening other owner start) (ih read)
  | case9 owner resolved start content closing =>
    cases read
    obtain ⟨name, event⟩ := event_of_contentOf closing
    apply ReadsPast.closing event (.refl rest _)
    intro behind
    rw [readData]
    simp only [closing]
  | case10 owner resolved start content text leaf ih =>
    apply ReadsPast.leaf (event_of_contentOf leaf) (ih read)
    intro behind
    rw [readData]
    simp only [leaf]
  | case11 owner resolved start content leaf ih =>
    apply ReadsPast.leaf (event_of_contentOf leaf) (ih read)
    intro behind
    rw [readData]
    simp only [leaf]

/-- Reading an instance gets past its element. -/
theorem readOwner_readsPast
    (read : readOwner namespace? codec element isEmpty owner trace = .ok (owner', rest)) :
    ReadsPast (if isEmpty then 0 else 1) (readOwner namespace? codec element isEmpty owner)
      (owner', ·) trace rest := by
  cases isEmpty with
  | true =>
    cases read
    exact .refl _ _
  | false => exact readData_readsPast read

end

/-! ## Children of the graph element -/

section

variable {V E A : Type} {codecs : Codecs V E A} {factories : Factories V E}
  {namespace? : Option Bytes} {vertices : VertexTable V} {tag : Tag} {isEmpty : Bool}
  {trace rest : Trace Resolved} {child : Child V E}

theorem readNode_readsPast
    (read : readNode codecs factories namespace? tag isEmpty trace = .ok (child, rest)) :
    ReadsPast (if isEmpty then 0 else 1) (readNode codecs factories namespace? tag isEmpty)
      (child, ·) trace rest := by
  simp only [readNode, bind_eq_ok_iff, pure_eq_ok_iff] at read
  obtain ⟨id, found, ⟨vertex, behind⟩, owner, ⟨⟩⟩ := read
  apply (readOwner_readsPast owner).imp
  intro more behind owner
  simp only [readNode, bind_eq_ok_iff, pure_eq_ok_iff]
  exact ⟨id, found, (vertex, behind), owner, rfl⟩

theorem readEdge_readsPast
    (read : readEdge codecs factories namespace? vertices tag isEmpty trace =
      .ok (child, rest)) :
    ReadsPast (if isEmpty then 0 else 1)
      (readEdge codecs factories namespace? vertices tag isEmpty) (child, ·) trace rest := by
  simp only [readEdge, bind_eq_ok_iff, pure_eq_ok_iff] at read
  obtain ⟨id, found, sourceId, foundSource, targetId, foundTarget, source, knownSource, target,
    knownTarget, ⟨edge, behind⟩, owner, ⟨⟩⟩ := read
  apply (readOwner_readsPast owner).imp
  intro more behind owner
  simp only [readEdge, bind_eq_ok_iff, pure_eq_ok_iff]
  exact ⟨id, found, sourceId, foundSource, targetId, foundTarget, source, knownSource, target,
    knownTarget, (edge, behind), owner, rfl⟩

theorem readGraphData_readsPast
    (read : readGraphData tag isEmpty trace = .ok (child, rest)) :
    ReadsPast (if isEmpty then 0 else 1) (readGraphData tag isEmpty) (child, ·) trace rest := by
  simp only [readGraphData, bind_eq_ok_iff, pure_eq_ok_iff] at read
  obtain ⟨key, found, ⟨text, behind⟩, collected, ⟨⟩⟩ := read
  apply (elementText_readsPast collected).imp
  intro more behind collected
  simp only [readGraphData, bind_eq_ok_iff, pure_eq_ok_iff]
  exact ⟨key, found, (text, behind), collected, rfl⟩

/-- Reading a child of the graph element gets past it. -/
theorem readChild_readsPast
    (read : readChild codecs factories namespace? vertices tag isEmpty trace = .ok (child, rest)) :
    ReadsPast (if isEmpty then 0 else 1)
      (readChild codecs factories namespace? vertices tag isEmpty) (child, ·) trace rest := by
  unfold readChild at read ⊢
  cases decoded : decodeUtf8 (localName tag.name) with
  | error cause =>
    rw [decoded] at read
    cases read
  | ok name =>
    rw [decoded] at read
    dsimp only at read ⊢
    by_cases node : name = ElementName.node
    · simp only [if_pos node] at read ⊢
      exact readNode_readsPast read
    by_cases edge : name = ElementName.edge
    · simp only [if_neg node, if_pos edge] at read ⊢
      exact readEdge_readsPast read
    by_cases data : name = ElementName.data
    · simp only [if_neg node, if_neg edge, if_pos data] at read ⊢
      exact readGraphData_readsPast read
    · rw [if_neg node, if_neg edge, if_neg data] at read
      cases read

end

/-! ## Around the graph element -/

/-- End tags that can be read. -/
def EndTags (tags : List Resolved) : Prop :=
  ∀ tag ∈ tags, contentOf tag = .ok .closing

/-- Behind an event that can be read, end tags are expected that can be read. -/
theorem EndTags.exists_behind {expected : List Resolved} (endTags : EndTags expected)
    {resolved : Resolved} {content : Content} (read : contentOf resolved = .ok content)
    (start : Nat) :
    ∃ expected', EndTags expected' ∧ ∀ rest,
      missingTags? expected (.item resolved start rest) = missingTags? expected' rest := by
  cases content with
  | opening tag found? isEmpty =>
    refine ⟨_, ?_, fun rest => missingTags?_tagEvent (event_of_contentOf read) expected⟩
    cases isEmpty with
    | true => exact endTags
    | false =>
      exact List.forall_mem_cons.mpr ⟨contentOf_closing_of_opening read tag.name, endTags⟩
  | closing =>
    obtain ⟨name, event⟩ := event_of_contentOf read
    refine ⟨expected.tail, fun tag member => endTags tag (List.mem_of_mem_tail member), ?_⟩
    intro rest
    rw [missingTags?, event]
  | text text =>
    exact ⟨expected, endTags, fun _ => missingTags?_leaf (event_of_contentOf read) _⟩
  | other =>
    exact ⟨expected, endTags, fun _ => missingTags?_leaf (event_of_contentOf read) _⟩

theorem EndTags.drop {expected : List Resolved} (endTags : EndTags expected) (count : Nat) :
    EndTags (expected.drop count) :=
  fun tag member => endTags tag (List.mem_of_mem_drop member)

/-- A search finds a rest of a trace behind which it does not look. -/
structure Finds {R : Type} (search : Trace Resolved → Except Error R)
    (result : Trace Resolved → R) (trace rest : Trace Resolved) : Prop where
  misses : ∀ expected, EndTags expected → ∃ expected', EndTags expected' ∧
    missingTags? expected trace = missingTags? expected' rest
  further : ∀ tags, search (trace.followedBy tags) = .ok (result (rest.followedBy tags))

/-- A search goes on behind an event, or ends there. -/
theorem Finds.item {R : Type} {search : Trace Resolved → Except Error R}
    {result : Trace Resolved → R} {resolved : Resolved} {start : Nat} {content : Content}
    (read : contentOf resolved = .ok content) {next : Trace Resolved → Except Error R}
    {middle last : Trace Resolved} (found : Finds next result middle last)
    (step : ∀ behind, search (.item resolved start behind) = next behind) :
    Finds search result (.item resolved start middle) last where
  misses expected endTags := by
    obtain ⟨expected', endTags', same⟩ := endTags.exists_behind read start
    obtain ⟨expected'', endTags'', same'⟩ := found.misses expected' endTags'
    exact ⟨expected'', endTags'', (same middle).trans same'⟩
  further tags := by
    rw [Trace.followedBy, step, found.further]

theorem Finds.refl {R : Type} (trace : Trace Resolved) (result : Trace Resolved → R) :
    Finds (fun behind => .ok (result behind)) result trace trace :=
  ⟨fun expected endTags => ⟨expected, endTags, rfl⟩, fun _ => rfl⟩

theorem findRoot_finds {trace rest : Trace Resolved} {namespace? : Option Bytes}
    (found : findRoot trace = .ok (namespace?, rest)) :
    Finds findRoot (namespace?, ·) trace rest := by
  fun_induction findRoot trace with
  | case1 => cases found
  | case2 => cases found
  | case3 => cases found
  | case4 => cases found
  | case5 resolved start behind tag found? isEmpty opening named notEmpty =>
    cases found
    refine .item opening (.refl _ _) fun behind => ?_
    rw [findRoot]
    simp only [opening, if_pos named, if_neg notEmpty]
  | case6 resolved start behind tag found? isEmpty opening other ih =>
    refine .item opening (ih found) fun behind => ?_
    rw [findRoot]
    simp only [opening, if_neg other]
  | case7 resolved start behind content notOpening read ih =>
    refine .item read (ih found) fun behind => ?_
    rw [findRoot]
    simp only [read]

theorem findGraph_finds {namespace? : Option Bytes} {trace rest : Trace Resolved} {isEmpty : Bool}
    (found : findGraph namespace? trace = .ok (isEmpty, rest)) :
    Finds (findGraph namespace?) (isEmpty, ·) trace rest := by
  fun_induction findGraph namespace? trace with
  | case1 => cases found
  | case2 => cases found
  | case3 => cases found
  | case4 resolved start behind tag found? isEmpty opening named =>
    cases found
    refine .item opening (.refl _ _) fun behind => ?_
    rw [findGraph]
    simp only [opening, if_pos named]
  | case5 resolved start behind tag found? isEmpty opening other ih =>
    refine .item opening (ih found) fun behind => ?_
    rw [findGraph]
    simp only [opening, if_neg other]
  | case6 resolved start behind content notOpening read ih =>
    refine .item read (ih found) fun behind => ?_
    rw [findGraph]
    simp only [read]

/-- End tags are passed over. -/
theorem drain_endTags {tags : List Resolved} (endTags : EndTags tags) :
    drain (Trace.followedBy tags .ended) = .ok () := by
  induction tags with
  | nil => rfl
  | cons tag tags ih =>
    obtain ⟨read, others⟩ := List.forall_mem_cons.mp endTags
    have step : drain (Trace.followedBy (tag :: tags) .ended) =
        drain (Trace.followedBy tags .ended) := by
      change drain (.item tag 0 _) = _
      rw [drain]
      simp only [read]
      rfl
    rw [step, ih others]

/-- A trace whose rest can be read has an end, and end tags may stand behind it. -/
theorem drain_followedBy {trace : Trace Resolved} (drained : drain trace = .ok ()) :
    (∀ expected, EndTags expected → ∃ missing, EndTags missing ∧
      missingTags? expected trace = some missing) ∧
    ∀ tags, EndTags tags → drain (trace.followedBy tags) = .ok () := by
  fun_induction drain trace with
  | case1 =>
    exact ⟨fun expected endTags => ⟨expected, endTags, rfl⟩, fun tags => drain_endTags⟩
  | case2 => cases drained
  | case3 => cases drained
  | case4 resolved start rest content read ih =>
    obtain ⟨misses, further⟩ := ih drained
    constructor
    · intro expected endTags
      obtain ⟨expected', endTags', same⟩ := endTags.exists_behind read start
      rw [same]
      exact misses expected' endTags'
    · intro tags endTags
      rw [Trace.followedBy, drain]
      simp only [read]
      exact further tags endTags

/-! ## The graph element -/

section

variable {V E A G : Type} [Target G V E A] {codecs : Codecs V E A} {factories : Factories V E}
  {namespace? : Option Bytes} {filling filling' : Filling G V} {resolved : Resolved} {start : Nat}
  {trace rest last : Trace Resolved} {graph : G}

/-- The reader of children gets from a trace to the rest of it and to a graph, and gets alike to the
rest of it when end tags stand behind the trace. -/
structure Leaves (codecs : Codecs V E A) (factories : Factories V E) (namespace? : Option Bytes)
    (filling : Filling G V) (trace last : Trace Resolved) (graph : G) : Prop where
  closes : ∀ depth, openInside? 0 trace ≠ some (depth + 1)
  misses : ∀ expected, EndTags expected → ∃ expected', EndTags expected' ∧
    missingTags? expected trace = missingTags? expected' last
  further : ∀ tags, EndTags tags → ∃ last',
    readChildren codecs factories namespace? filling (trace.followedBy tags) =
        (.ok last', graph) ∧
      (drain last = .ok () → drain last' = .ok ())

namespace Leaves

/-- The end of the input does for the end tag. -/
theorem ended : Leaves codecs factories namespace? filling .ended .ended filling.graph where
  closes depth same := by
    cases same
  misses expected endTags := ⟨expected, endTags, rfl⟩
  further tags endTags := by
    cases tags with
    | nil => exact ⟨.ended, by rw [Trace.followedBy, List.foldr, readChildren], id⟩
    | cons tag tags =>
      obtain ⟨read, others⟩ := List.forall_mem_cons.mp endTags
      refine ⟨Trace.followedBy tags .ended, ?_, fun _ => drain_endTags others⟩
      change readChildren codecs factories namespace? filling (.item tag 0 _) = _
      rw [readChildren]
      simp only [read]
      rfl

/-- Behind the end tag only markup that can be read is asked for. -/
theorem closing (closing : contentOf resolved = .ok .closing) :
    Leaves codecs factories namespace? filling (.item resolved start rest) rest
      filling.graph where
  closes depth same := by
    obtain ⟨name, event⟩ := event_of_contentOf closing
    rw [openInside?, event] at same
    cases same
  misses expected endTags := by
    obtain ⟨expected', endTags', same⟩ := endTags.exists_behind closing start
    exact ⟨expected', endTags', same rest⟩
  further tags endTags := by
    refine ⟨rest.followedBy tags, ?_, fun drained => (drain_followedBy drained).2 tags endTags⟩
    rw [Trace.followedBy, readChildren]
    simp only [closing]

/-- A leaf makes no difference. -/
theorem leaf (isLeaf : resolved.event.isLeaf)
    (step : ∀ behind, readChildren codecs factories namespace? filling
      (.item resolved start behind) = readChildren codecs factories namespace? filling behind)
    (leaves : Leaves codecs factories namespace? filling rest last graph) :
    Leaves codecs factories namespace? filling (.item resolved start rest) last graph where
  closes depth := by
    rw [openInside?_leaf isLeaf]
    exact leaves.closes depth
  misses expected endTags := by
    rw [missingTags?_leaf isLeaf]
    exact leaves.misses expected endTags
  further tags endTags := by
    rw [Trace.followedBy, step]
    exact leaves.further tags endTags

/-- Behind an element the children go on. -/
theorem opening {R : Type} {tag : Tag} {found? : Option Bytes} {isEmpty : Bool}
    {content : Trace Resolved} {reader : Trace Resolved → Except Error R}
    {result : Trace Resolved → R}
    (opening : contentOf resolved = .ok (.opening tag found? isEmpty))
    (past : ReadsPast (if isEmpty then 0 else 1) reader result content rest)
    (step : ∀ content behind, reader content = .ok (result behind) →
      readChildren codecs factories namespace? filling (.item resolved start content) =
        readChildren codecs factories namespace? filling' behind)
    (leaves : Leaves codecs factories namespace? filling' rest last graph) :
    Leaves codecs factories namespace? filling (.item resolved start content) last graph where
  closes depth := by
    rw [openInside?_tagEvent (event_of_contentOf opening), past.closes]
    exact leaves.closes depth
  misses expected endTags := by
    have same : (if isEmpty then expected
        else ⟨resolved.resolution, .closing tag.name⟩ :: expected).drop (if isEmpty then 0 else 1) =
          expected := by
      cases isEmpty <;> rfl
    rw [missingTags?_tagEvent (event_of_contentOf opening), past.misses, same]
    exact leaves.misses expected endTags
  further tags endTags := by
    rw [Trace.followedBy, step _ _ (past.further tags)]
    exact leaves.further tags endTags

end Leaves

/-- The reader of children goes on behind an element of another vocabulary. -/
theorem readChildren_item_other {tag : Tag} {found? : Option Bytes} {isEmpty : Bool}
    {content behind : Trace Resolved}
    (opening : contentOf resolved = .ok (.opening tag found? isEmpty))
    (other : ¬found? = namespace?) (left : leaveOut isEmpty content = .ok behind) :
    readChildren codecs factories namespace? filling (.item resolved start content) =
      readChildren codecs factories namespace? filling behind := by
  rw [leaveOut] at left
  rw [readChildren_item_opening opening, if_neg other, left]

/-- The reader of children leaves a trace at the end tag of the graph element, or at its end. -/
theorem readChildren_leaves
    (read : readChildren codecs factories namespace? filling trace = (.ok last, graph)) :
    Leaves codecs factories namespace? filling trace last graph := by
  fun_induction readChildren codecs factories namespace? filling trace with
  | case1 filling =>
    cases read
    exact .ended
  | case2 => cases read
  | case3 => cases read
  | case4 => cases read
  | case5 => cases read
  | case6 filling resolved start content tag isEmpty child rest first filling' added opening ih =>
    refine .opening opening (readChild_readsPast first) (fun content behind first => ?_) (ih read)
    rw [readChildren_item_opening opening, if_pos rfl, first]
    dsimp only
    rw [added]
  | case7 filling resolved start content tag found? other opening ih =>
    have left : leaveOut true content = .ok content := rfl
    exact .opening opening (leaveOut_readsPast left)
      (fun _ _ => readChildren_item_other opening other) (ih read)
  | case8 => cases read
  | case9 filling resolved start content tag found? isEmpty opening other open_ rest skipped ih =>
    have left : leaveOut isEmpty content = .ok rest := by
      rw [leaveOut, if_neg open_]
      exact skipped
    exact .opening opening (leaveOut_readsPast left)
      (fun _ _ => readChildren_item_other opening other) (ih read)
  | case10 filling resolved start rest closing =>
    cases read
    exact .closing closing
  | case11 filling resolved start rest text leaf ih =>
    refine .leaf (event_of_contentOf leaf) (fun behind => ?_) (ih read)
    rw [readChildren]
    simp only [leaf]
  | case12 filling resolved start rest leaf ih =>
    refine .leaf (event_of_contentOf leaf) (fun behind => ?_) (ih read)
    rw [readChildren]
    simp only [leaf]

/-- Reading the graph element and what stands behind it. -/
def readGraph (codecs : Codecs V E A) (factories : Factories V E) (namespace? : Option Bytes)
    (isEmpty : Bool) (graph : G) (content : Trace Resolved) : Except Error Unit × G :=
  if isEmpty then (drain content, graph)
  else
    match readChildren codecs factories namespace? ⟨graph, []⟩ content with
    | (.error error, graph) => (.error error, graph)
    | (.ok rest, graph) => (drain rest, graph)

/-- Reading begins with two searches. -/
theorem readTrace_eq_readGraph {behind content : Trace Resolved} {isEmpty : Bool}
    (root : findRoot trace = .ok (namespace?, behind))
    (child : findGraph namespace? behind = .ok (isEmpty, content)) (before : G) :
    readTrace codecs factories trace before =
      readGraph codecs factories namespace? isEmpty (applyGraphDefaults codecs.graph before)
        content := by
  rw [readTrace, root]
  dsimp only
  rw [child]
  rfl

/-- In a document that is read there is a graph element. -/
theorem exists_of_readTrace_eq_ok {before after : G}
    (read : readTrace codecs factories trace before = (.ok (), after)) :
    ∃ namespace? behind isEmpty content, findRoot trace = .ok (namespace?, behind) ∧
      findGraph namespace? behind = .ok (isEmpty, content) := by
  rw [readTrace] at read
  cases root : findRoot trace with
  | error error =>
    rw [root] at read
    cases read
  | ok found =>
    rcases found with ⟨namespace?, behind⟩
    rw [root] at read
    dsimp only at read
    cases child : findGraph namespace? behind with
    | error error =>
      rw [child] at read
      cases read
    | ok found => exact ⟨namespace?, behind, found.1, found.2, rfl, child⟩

/-- Where the graph element is read, its content does not end inside a child, and it is read alike
with end tags behind it. -/
theorem readGraph_followedBy {isEmpty : Bool} {content : Trace Resolved} {before after : G}
    (read : readGraph codecs factories namespace? isEmpty before content = (.ok (), after)) :
    (isEmpty = false → ∀ depth, openInside? 0 content ≠ some (depth + 1)) ∧
      (∀ expected, EndTags expected → ∃ missing, EndTags missing ∧
        missingTags? expected content = some missing) ∧
      ∀ tags, EndTags tags →
        readGraph codecs factories namespace? isEmpty before (content.followedBy tags) =
          (.ok (), after) := by
  unfold readGraph at read ⊢
  cases isEmpty with
  | true =>
    obtain ⟨drained, rfl⟩ := Prod.mk.inj read
    obtain ⟨misses, further⟩ := drain_followedBy drained
    refine ⟨nofun, misses, fun tags endTags => ?_⟩
    exact Prod.ext (further tags endTags) rfl
  | false =>
    simp only [if_neg Bool.false_ne_true] at read ⊢
    rcases children : readChildren codecs factories namespace? ⟨before, []⟩ content with
      ⟨result, filled⟩
    rw [children] at read
    cases result with
    | error error => cases read
    | ok last =>
      obtain ⟨drained, rfl⟩ := Prod.mk.inj read
      have leaves := readChildren_leaves children
      refine ⟨fun _ => leaves.closes, fun expected endTags => ?_, fun tags endTags => ?_⟩
      · obtain ⟨expected', endTags', same⟩ := leaves.misses expected endTags
        rw [same]
        exact (drain_followedBy drained).1 expected' endTags'
      · obtain ⟨last', same, drains⟩ := leaves.further tags endTags
        rw [same]
        exact Prod.ext (drains drained) rfl

/-- Where a trace is read, it does not end inside a child of the graph element, and it is read
alike with its missing end tags behind it. -/
theorem readTrace_followedBy {before after : G}
    (read : readTrace codecs factories trace before = (.ok (), after)) :
    (∀ depth, openInGraph? trace ≠ some (depth + 1)) ∧
      ∃ missing, missingTags? [] trace = some missing ∧
        readTrace codecs factories (trace.followedBy missing) before = (.ok (), after) := by
  obtain ⟨namespace?, behind, isEmpty, content, root, child⟩ := exists_of_readTrace_eq_ok read
  rw [readTrace_eq_readGraph root child] at read
  obtain ⟨inside, misses, further⟩ := readGraph_followedBy read
  obtain ⟨missesRoot, furtherRoot⟩ := findRoot_finds root
  obtain ⟨missesGraph, furtherGraph⟩ := findGraph_finds child
  constructor
  · intro depth
    rw [openInGraph?, root]
    dsimp only
    rw [child]
    cases isEmpty with
    | true => exact nofun
    | false => exact inside rfl depth
  · obtain ⟨expected, endTags, same⟩ := missesRoot [] (List.forall_mem_nil _)
    obtain ⟨expected', endTags', same'⟩ := missesGraph expected endTags
    obtain ⟨missing, areTags, ends⟩ := misses expected' endTags'
    refine ⟨missing, same.trans (same'.trans ends), ?_⟩
    rw [readTrace_eq_readGraph (furtherRoot missing) (furtherGraph missing)]
    exact further missing areTags

/-- A document that is read does not end inside a child of its graph element. End tags of the
graph element and of the elements around it may be missing: the document is read as the one that
has them. -/
theorem read_followedBy (type : GraphType V E A) {codecs : Codecs V E A}
    (compiled : type.compile = .ok codecs) (factories : Factories V E) {document : Bytes}
    {before after : G} (read : read type factories document before = (.ok (), after)) :
    (∀ depth, openInGraph? (Markup.read document) ≠ some (depth + 1)) ∧
      ∃ missing nodes, missingTags? [] (Markup.read document) = some missing ∧
        Reads ((Markup.read document).followedBy missing) nodes .ended ∧
          readTrace codecs factories ((Markup.read document).followedBy missing) before =
            (.ok (), after) := by
  rw [Document.read, compiled] at read
  obtain ⟨inGraph, missing, ends, same⟩ := readTrace_followedBy read
  obtain ⟨-, nodes, reads⟩ := exists_reads_followedBy ends
  exact ⟨inGraph, missing, nodes, ends, reads, same⟩

end

section

open GraphMarkup.Sample

/-- A network without towns. -/
def noTowns : AdjacencyGraph Town Road Network :=
  .empty true true {}

/-- A document that ends behind a town. -/
def openTownDocument : Bytes :=
  bytesOf "<graphml><graph><node id='a'/>"

/-- The town is read as if the document did not end there. -/
theorem read_openTownDocument :
    ∃ codecs missing nodes after, roadGraphType.compile = .ok codecs ∧
      missingTags? [] (Markup.read openTownDocument) = some missing ∧
        Reads ((Markup.read openTownDocument).followedBy missing) nodes .ended ∧
          read roadGraphType roadFactories openTownDocument noTowns = (.ok (), after) ∧
            readTrace codecs roadFactories ((Markup.read openTownDocument).followedBy missing)
              noTowns = (.ok (), after) := by
  have compiled : ∃ codecs, roadGraphType.compile = .ok codecs := ⟨_, rfl⟩
  obtain ⟨codecs, compiled⟩ := compiled
  have reads : ∃ value,
      (read roadGraphType roadFactories openTownDocument noTowns).1 = .ok value := by
    decide +kernel
  obtain ⟨_, reads⟩ := reads
  have read : read roadGraphType roadFactories openTownDocument noTowns = (.ok (), _) :=
    Prod.ext reads rfl
  obtain ⟨-, missing, nodes, ends, tree, same⟩ :=
    read_followedBy roadGraphType compiled roadFactories read
  exact ⟨codecs, missing, nodes, _, compiled, ends, tree, read, same⟩

/-- A document that ends inside its graph element is read. -/
theorem read_openGraphDocument :
    let document := bytesOf "<graphml><graph>"
    openInGraph? (Markup.read document) = some 0 ∧
      (read roadGraphType roadFactories document noTowns).1 = .ok () := by
  intro document
  have reads : ∃ value, (read roadGraphType roadFactories document noTowns).1 = .ok value := by
    decide +kernel
  obtain ⟨_, reads⟩ := reads
  exact ⟨by decide +kernel, reads⟩

end

end GraphMarkup.Document
