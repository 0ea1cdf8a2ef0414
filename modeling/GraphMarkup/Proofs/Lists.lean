import GraphMarkup.Proofs.Result
import Mathlib.Data.List.Forall2

/-!
# Lists and tables

Two lists are partners if their elements are, position by position. What is said of the
elements of one list carries over to the other. A table is a list of keys and values, looked up
from the front.
-/

namespace GraphMarkup

/-- Elements that each have a partner have a list of partners. -/
theorem exists_forall₂ {α β : Type} {R : α → β → Prop} {items : List α}
    (each : ∀ item ∈ items, ∃ partner, R item partner) :
    ∃ partners, List.Forall₂ R items partners := by
  induction items with
  | nil => exact ⟨[], .nil⟩
  | cons item items ih =>
    obtain ⟨partner, first⟩ := each item List.mem_cons_self
    obtain ⟨partners, others⟩ := ih fun other member => each other (List.mem_cons_of_mem _ member)
    exact ⟨partner :: partners, .cons first others⟩

/-- What holds between any two elements of a list, the earlier and the later, holds between their
partners. -/
theorem pairwise_of_forall₂ {α β : Type} {R : α → α → Prop} {S : β → β → Prop}
    {P : α → β → Prop} {items : List α} {partners : List β} (pairs : List.Forall₂ P items partners)
    (pairwise : items.Pairwise R)
    (transfer : ∀ a ∈ items, ∀ b ∈ items, ∀ a' b', P a a' → P b b' → R a b → S a' b') :
    partners.Pairwise S := by
  have length := pairs.length_eq
  apply List.pairwise_iff_getElem.mpr
  intro i j atI atJ less
  rw [← length] at atI atJ
  exact transfer _ (List.getElem_mem atI) _ (List.getElem_mem atJ) _ _ (pairs.get atI _)
    (pairs.get atJ _) (List.pairwise_iff_getElem.mp pairwise i j atI atJ less)

/-- What an element has to do with its partner, whatever its position. -/
theorem forall₂_of_zipIdx {α β : Type} {R : α → β → Prop} {items : List α} {partners : List β}
    (pairs : List.Forall₂ (fun entry partner => R entry.1 partner) items.zipIdx partners) :
    List.Forall₂ R items partners := by
  rw [← List.zipIdx_map_fst 0 items]
  exact List.forall₂_map_left_iff.mpr pairs

/-- In a table of distinct keys every key is looked up where it stands. -/
theorem lookup_of_mem {α : Type} {table : List (String × α)}
    (distinct : (table.map Prod.fst).Nodup) {key : String} {value : α}
    (member : (key, value) ∈ table) : table.lookup key = some value := by
  obtain ⟨front, back, rfl⟩ := List.append_of_mem member
  refine List.lookup_eq_some_iff.mpr ⟨front, back, rfl, ?_⟩
  intro earlier inFront
  rw [List.map_append, List.map_cons] at distinct
  have other := (List.nodup_append.mp distinct).2.2 earlier.1 (List.mem_map_of_mem inFront) key
    List.mem_cons_self
  simpa using other.symm

/-- Every partner is the partner of an element. -/
theorem exists_of_mem_partner {α β : Type} {R : α → β → Prop} {items : List α} {partners : List β}
    (pairs : List.Forall₂ R items partners) {partner : β} (member : partner ∈ partners) :
    ∃ item ∈ items, R item partner := by
  obtain ⟨position, inside, rfl⟩ := List.getElem_of_mem member
  have atItem : position < items.length := pairs.length_eq ▸ inside
  exact ⟨items[position], List.getElem_mem atItem, pairs.get atItem inside⟩

/-- Computations in order give the error of the first that fails. -/
theorem mapM_eq_error_iff {ε α β : Type} {f : α → Except ε β} {items : List α} {cause : ε} :
    items.mapM f = .error cause ↔ ∃ before item after, items = before ++ item :: after ∧
      (∀ earlier ∈ before, ∃ value, f earlier = .ok value) ∧ f item = .error cause := by
  induction items with
  | nil => simp [pure_ne_error]
  | cons item items ih =>
    rw [List.mapM_cons, bind_eq_error_iff]
    constructor
    · rintro (fails | ⟨value, first, fails⟩)
      · exact ⟨[], item, items, rfl, List.forall_mem_nil _, fails⟩
      · rw [bind_eq_error_iff] at fails
        rcases fails with fails | ⟨values, -, fails⟩
        · obtain ⟨before, other, after, rfl, passed, fails⟩ := ih.mp fails
          refine ⟨item :: before, other, after, rfl, ?_, fails⟩
          exact List.forall_mem_cons.mpr ⟨⟨value, first⟩, passed⟩
        · exact absurd fails pure_ne_error
    · rintro ⟨before, other, after, split, passed, fails⟩
      cases before with
      | nil =>
        cases split
        exact Or.inl fails
      | cons earlier before =>
        cases split
        obtain ⟨⟨value, first⟩, passed⟩ := List.forall_mem_cons.mp passed
        exact Or.inr ⟨value, first, bind_eq_error_iff.mpr
          (Or.inl (ih.mpr ⟨before, other, after, rfl, passed, fails⟩))⟩

/-- Computations in order succeed if each of them does. -/
theorem exists_mapM_eq_ok_iff {ε α β : Type} {f : α → Except ε β} {items : List α} :
    (∃ values, items.mapM f = .ok values) ↔ ∀ item ∈ items, ∃ value, f item = .ok value := by
  induction items with
  | nil => simp [pure, Except.pure]
  | cons item items ih =>
    simp only [List.mapM_cons, bind_eq_ok_iff, pure_eq_ok_iff, List.forall_mem_cons, ← ih]
    constructor
    · rintro ⟨_, value, first, values, others, rfl⟩
      exact ⟨⟨value, first⟩, values, others⟩
    · rintro ⟨⟨value, first⟩, values, others⟩
      exact ⟨_, value, first, values, others, rfl⟩

end GraphMarkup
