import Mathlib.Data.List.Infix
import Mathlib.Data.List.Perm.Subperm
import Mathlib.Logic.Relation

/-!
# Breadth-first order

Everything that a root refers to, directly or through others, is listed nearest first: by the
length of the chains of references, and for equal lengths in the order of the chains. A queue
with a record of what was visited goes through exactly this list.
-/

namespace GraphMarkup.Schema

variable {α : Type}

/-- What is reached by chains of `length` references, in the order of the chains. -/
def generation (next : α → List α) (root : α) : (length : Nat) → List α
  | 0 => [root]
  | length + 1 => (generation next root length).flatMap next

/-- What is reached in some number of references. -/
def Reaches (next : α → List α) : α → α → Prop :=
  Relation.ReflTransGen fun source target => target ∈ next source

section

variable [DecidableEq α]

/-- What is reached by chains of at most `length` references, nearest first and each once. -/
def within (next : α → List α) (root : α) (length : Nat) : List α :=
  ((List.range (length + 1)).flatMap (generation next root)).eraseDups

/-- A list goes through all that is reached, nearest first: longer chains add nothing to it. -/
def IsBreadthFirst (next : α → List α) (root : α) (order : List α) : Prop :=
  ∃ bound, ∀ length, bound ≤ length → within next root length = order

/-! ## First occurrences -/

/-- A last item is kept unless it occurs in front. -/
theorem eraseDups_concat (items : List α) (item : α) :
    (items ++ [item]).eraseDups =
      if item ∈ items then items.eraseDups else items.eraseDups ++ [item] := by
  rw [List.eraseDups_append, List.removeAll]
  by_cases known : item ∈ items <;> simp [known, List.eraseDups_cons]

theorem nodup_eraseDups (items : List α) : items.eraseDups.Nodup := by
  induction items using List.reverseRecOn with
  | nil => exact List.nodup_nil
  | append_singleton items item ih =>
    rw [eraseDups_concat]
    split
    · exact ih
    · rename_i fresh
      rw [← List.mem_eraseDups] at fresh
      refine List.nodup_append.mpr ⟨ih, List.pairwise_singleton _ _, ?_⟩
      rintro earlier inside last isLast rfl
      exact fresh (List.mem_singleton.mp isLast ▸ inside)

/-- What occurs in front already makes no difference. -/
theorem eraseDups_append_of_subset {front back : List α} (inside : ∀ item ∈ back, item ∈ front) :
    (front ++ back).eraseDups = front.eraseDups := by
  have none : back.removeAll front = [] := by
    rw [List.removeAll, List.filter_eq_nil_iff]
    intro item member
    simp [inside item member]
  rw [List.eraseDups_append, none, List.eraseDups_nil, List.append_nil]

/-- What does not occur in front comes right behind it. -/
theorem eraseDups_append_cons {front : List α} {item : α} (fresh : item ∉ front)
    (back : List α) :
    ∃ rest, (front ++ item :: back).eraseDups = front.eraseDups ++ item :: rest := by
  have kept : (item :: back).removeAll front = item :: back.removeAll front := by
    rw [List.removeAll, List.filter_cons_of_pos (by simpa using fresh), List.removeAll]
  rw [List.eraseDups_append, kept, List.eraseDups_cons]
  exact ⟨_, rfl⟩

theorem eraseDups_of_nodup {items : List α} (distinct : items.Nodup) : items.eraseDups = items := by
  induction items using List.reverseRecOn with
  | nil => rfl
  | append_singleton items item ih =>
    obtain ⟨inFront, -, apart⟩ := List.nodup_append.mp distinct
    have fresh : item ∉ items := fun member =>
      apart item member item (List.mem_singleton_self item) rfl
    rw [eraseDups_concat, if_neg fresh, ih inFront]

theorem eraseDups_append_eraseDups (front back : List α) :
    (front.eraseDups ++ back).eraseDups = (front ++ back).eraseDups := by
  have same : back.removeAll front.eraseDups = back.removeAll front := by
    simp [List.removeAll]
  rw [List.eraseDups_append, List.eraseDups_append, eraseDups_of_nodup (nodup_eraseDups front),
    same]

/-- First occurrences in what is in front of a list depend only on first occurrences there. -/
theorem eraseDups_append_congr {front front' : List α} (same : front.eraseDups = front'.eraseDups)
    (back : List α) : (front ++ back).eraseDups = (front' ++ back).eraseDups := by
  rw [← eraseDups_append_eraseDups, same, eraseDups_append_eraseDups]

theorem eraseDups_prefix {front whole : List α} (isFront : front <+: whole) :
    front.eraseDups <+: whole.eraseDups := by
  obtain ⟨back, rfl⟩ := isFront
  rw [List.eraseDups_append]
  exact List.prefix_append _ _

/-- Only the first occurrence of a source adds to what the sources lead to. -/
theorem eraseDups_append_flatMap (front sources : List α) (next : α → List α) :
    (front ++ sources.eraseDups.flatMap next).eraseDups =
      (front ++ sources.flatMap next).eraseDups := by
  induction sources using List.reverseRecOn with
  | nil => rfl
  | append_singleton sources source ih =>
    rw [List.flatMap_append, List.flatMap_singleton, ← List.append_assoc, eraseDups_concat]
    by_cases known : source ∈ sources
    · have inside : ∀ item ∈ next source, item ∈ front ++ sources.flatMap next :=
        fun item member =>
          List.mem_append_right _ (List.mem_flatMap.mpr ⟨source, known, member⟩)
      rw [if_pos known, ih, eraseDups_append_of_subset inside]
    · rw [if_neg known, List.flatMap_append, List.flatMap_singleton, ← List.append_assoc]
      exact eraseDups_append_congr ih (next source)

/-! ## Generations -/

section

variable (next : α → List α) (root : α)

omit [DecidableEq α] in
/-- What is reached is what stands in some generation. -/
theorem reaches_iff_exists_generation {item : α} :
    Reaches next root item ↔ ∃ length, item ∈ generation next root length := by
  constructor
  · intro reached
    induction reached with
    | refl => exact ⟨0, List.mem_singleton_self root⟩
    | tail _ refers ih =>
      obtain ⟨length, member⟩ := ih
      exact ⟨length + 1, List.mem_flatMap.mpr ⟨_, member, refers⟩⟩
  · rintro ⟨length, member⟩
    induction length generalizing item with
    | zero =>
      cases List.mem_singleton.mp member
      exact .refl
    | succ length ih =>
      obtain ⟨source, inside, refers⟩ := List.mem_flatMap.mp member
      exact (ih inside).tail refers

/-- Behind the root stands what the nearer ones refer to. -/
theorem within_succ (length : Nat) :
    within next root (length + 1) =
      (root :: (within next root length).flatMap next).eraseDups := by
  have generations : (List.range (length + 2)).flatMap (generation next root) =
      root :: ((List.range (length + 1)).flatMap (generation next root)).flatMap next := by
    rw [List.range_succ_eq_map, List.flatMap_cons, List.flatMap_map, List.flatMap_assoc]
    rfl
  rw [within, generations, within]
  exact (eraseDups_append_flatMap [root] _ next).symm

theorem within_zero : within next root 0 = [root] := by
  simp [within, generation, List.range_succ, List.eraseDups_cons]

theorem mem_within_iff {length : Nat} {item : α} :
    item ∈ within next root length ↔
      ∃ shorter, shorter ≤ length ∧ item ∈ generation next root shorter := by
  rw [within, List.mem_eraseDups, List.mem_flatMap]
  simp only [List.mem_range, Nat.lt_succ_iff]

/-- More references only add at the end. -/
theorem within_prefix {shorter longer : Nat} (less : shorter ≤ longer) :
    within next root shorter <+: within next root longer := by
  induction longer, less using Nat.le_induction with
  | base => exact List.prefix_refl _
  | succ longer _ ih =>
    refine ih.trans ?_
    rw [within, within, List.range_succ (n := longer + 1), List.flatMap_append]
    exact eraseDups_prefix (List.prefix_append _ _)

/-- Where one more reference adds nothing, any more add nothing. -/
theorem within_eq_of_le {length longer : Nat}
    (settled : within next root (length + 1) = within next root length)
    (less : length ≤ longer) : within next root longer = within next root length := by
  induction longer, less using Nat.le_induction with
  | base => rfl
  | succ longer _ ih => rw [within_succ, ih, ← within_succ, settled]

/-- If only finitely many things are reached, there is a breadth-first order of them. -/
theorem exists_isBreadthFirst {all : List α}
    (finite : ∀ item, Reaches next root item → item ∈ all) :
    ∃ order, IsBreadthFirst next root order := by
  have bounded : ∀ length, (within next root length).length ≤ all.length := by
    intro length
    refine (List.subperm_of_subset (nodup_eraseDups _) fun item member => ?_).length_le
    obtain ⟨shorter, -, inside⟩ := (mem_within_iff next root).mp member
    exact finite item ((reaches_iff_exists_generation next root).mpr ⟨shorter, inside⟩)
  by_contra! none
  -- Otherwise every further reference adds something, and there is more than all in the end.
  have grows : ∀ length, length < (within next root length).length := by
    intro length
    induction length with
    | zero => rw [within_zero]; exact Nat.zero_lt_one
    | succ length ih =>
      have isFront := within_prefix next root (Nat.le_succ length)
      have changes : within next root (length + 1) ≠ within next root length := fun settled =>
        none _ ⟨length, fun longer less => within_eq_of_le next root settled less⟩
      have longer : (within next root length).length < (within next root (length + 1)).length :=
        lt_of_le_of_ne isFront.length_le fun same =>
          changes (isFront.eq_of_length same).symm
      omega
  exact absurd (grows all.length) (Nat.not_lt.mpr (bounded all.length))

end

namespace IsBreadthFirst

variable {next : α → List α} {root : α} {order : List α}

theorem nodup (breadthFirst : IsBreadthFirst next root order) : order.Nodup := by
  obtain ⟨bound, settled⟩ := breadthFirst
  rw [← settled bound le_rfl]
  exact nodup_eraseDups _

/-- The order has what is reached and nothing else. -/
theorem mem_iff (breadthFirst : IsBreadthFirst next root order) {item : α} :
    item ∈ order ↔ Reaches next root item := by
  obtain ⟨bound, settled⟩ := breadthFirst
  rw [reaches_iff_exists_generation]
  constructor
  · intro member
    rw [← settled bound le_rfl, mem_within_iff] at member
    obtain ⟨length, -, inside⟩ := member
    exact ⟨length, inside⟩
  · rintro ⟨length, inside⟩
    rw [← settled (max bound length) (le_max_left _ _), mem_within_iff]
    exact ⟨length, le_max_right _ _, inside⟩

/-- There is one such order. -/
theorem unique {other : List α} (breadthFirst : IsBreadthFirst next root order)
    (otherBreadthFirst : IsBreadthFirst next root other) : other = order := by
  obtain ⟨bound, settled⟩ := breadthFirst
  obtain ⟨otherBound, otherSettled⟩ := otherBreadthFirst
  rw [← settled (max bound otherBound) (le_max_left _ _),
    otherSettled (max bound otherBound) (le_max_right _ _)]

/-- Everything behind the root stands where it is first referred to. -/
theorem eq_eraseDups (breadthFirst : IsBreadthFirst next root order) :
    order = (root :: order.flatMap next).eraseDups := by
  obtain ⟨bound, settled⟩ := breadthFirst
  rw [← settled bound le_rfl, ← within_succ, settled bound le_rfl,
    settled (bound + 1) (Nat.le_succ bound)]

end IsBreadthFirst

/-! ## Queues -/

/-- A queue that goes through an order: what was visited is a beginning of the order, and the
pending items are what the visited ones refer to, apart from repetitions. -/
structure Explores (next : α → List α) (root : α) (order visited pending : List α) : Prop where
  isFront : visited <+: order
  queued : (visited ++ pending).eraseDups = (root :: visited.flatMap next).eraseDups

namespace Explores

variable {next : α → List α} {root : α} {order visited pending : List α} {item : α}

theorem initial (next : α → List α) (root : α) (order : List α) :
    Explores next root order [] [root] :=
  ⟨List.nil_prefix, rfl⟩

/-- What was visited before may be left out. -/
theorem skip (explores : Explores next root order visited (item :: pending))
    (known : item ∈ visited) : Explores next root order visited pending := by
  have same : (visited ++ [item]).eraseDups = visited.eraseDups :=
    eraseDups_append_of_subset (by simpa using known)
  refine ⟨explores.isFront, ?_⟩
  rw [← explores.queued, List.append_cons]
  exact eraseDups_append_congr same.symm pending

/-- What is pending and was not visited is the next item of the order. -/
theorem next_isFront (explores : Explores next root order visited (item :: pending))
    (breadthFirst : IsBreadthFirst next root order) (fresh : item ∉ visited) :
    visited ++ [item] <+: order := by
  have distinct : visited.Nodup := explores.isFront.sublist.nodup breadthFirst.nodup
  have within : (root :: visited.flatMap next).eraseDups <+: order := by
    rw [breadthFirst.eq_eraseDups]
    obtain ⟨rest, rfl⟩ := explores.isFront
    apply eraseDups_prefix
    rw [List.flatMap_append, ← List.cons_append]
    exact List.prefix_append _ _
  obtain ⟨rest, split⟩ := eraseDups_append_cons fresh pending
  rw [← explores.queued, split, eraseDups_of_nodup distinct, List.append_cons] at within
  exact (List.prefix_append _ _).trans within

/-- Visiting an item puts what it refers to behind the others. -/
theorem visit (explores : Explores next root order visited (item :: pending))
    (breadthFirst : IsBreadthFirst next root order) (fresh : item ∉ visited) :
    Explores next root order (visited ++ [item]) (pending ++ next item) := by
  refine ⟨explores.next_isFront breadthFirst fresh, ?_⟩
  have queued := eraseDups_append_congr explores.queued (next item)
  rw [List.append_cons, List.append_assoc, List.cons_append] at queued
  rw [queued, List.flatMap_append, List.flatMap_singleton]

/-- When nothing is pending everything was visited. -/
theorem eq_of_nil (explores : Explores next root order visited [])
    (breadthFirst : IsBreadthFirst next root order) : visited = order := by
  have distinct : visited.Nodup := explores.isFront.sublist.nodup breadthFirst.nodup
  have queued := explores.queued
  rw [List.append_nil, eraseDups_of_nodup distinct] at queued
  have closed : ∀ item, Reaches next root item → item ∈ visited := by
    intro item reached
    induction reached with
    | refl =>
      rw [queued, List.mem_eraseDups]
      exact List.mem_cons_self
    | @tail source target _ refers ih =>
      rw [queued, List.mem_eraseDups]
      exact List.mem_cons_of_mem _ (List.mem_flatMap.mpr ⟨source, ih, refers⟩)
  have longer : order.length ≤ visited.length :=
    (List.subperm_of_subset breadthFirst.nodup fun item member =>
      closed item (breadthFirst.mem_iff.mp member)).length_le
  exact explores.isFront.eq_of_length_le longer

end Explores

end

end GraphMarkup.Schema
