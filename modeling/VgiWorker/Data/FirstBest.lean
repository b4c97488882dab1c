import Mathlib.Data.List.MinMax
import Mathlib.Tactic.Common

/-!
# The first of the best

Items of the highest score, in their order, of which the first is taken.
-/

set_option autoImplicit false

namespace VgiWorker

variable {α : Type} (score : α → Nat)

/-- The items whose score is the highest. -/
def bestOf (items : List α) : List α :=
  items.filter fun item => score item = (items.map score).max?.getD 0

/-- Each item that the predicate does not hold of comes behind one that it holds of: by its score,
or by its place where the scores are the same. -/
def Outranked (holds : α → Prop) (items : List α) : Prop :=
  ∀ (place : Nat) (item : α), items[place]? = some item → ¬ holds item →
    ∃ (other : Nat) (better : α), items[other]? = some better ∧ holds better ∧
      (score item < score better ∨ score item = score better ∧ other < place)

private theorem score_le_max (items : List α) (item : α) (member : item ∈ items) :
    score item ≤ (items.map score).max?.getD 0 := by
  cases highest : (items.map score).max? with
  | none =>
      rw [List.max?_eq_none_iff, List.map_eq_nil_iff] at highest
      rw [highest] at member
      cases member
  | some top =>
      exact (List.max?_eq_some_iff.mp highest).2 _ (List.mem_map_of_mem member)

private theorem exists_score_max (items : List α) (nonempty : items ≠ []) :
    ∃ item ∈ items, score item = (items.map score).max?.getD 0 := by
  cases highest : (items.map score).max? with
  | none =>
      rw [List.max?_eq_none_iff, List.map_eq_nil_iff] at highest
      exact absurd highest nonempty
  | some top =>
      obtain ⟨item, member, same⟩ := List.mem_map.mp (List.max?_eq_some_iff.mp highest).1
      exact ⟨item, member, same⟩

/-- The first of the best is ahead of every other item. -/
theorem head?_bestOf (items : List α) (best : α) (first : (bestOf score items).head? = some best) :
    ∃ place : Nat, items[place]? = some best ∧ ∀ (other : Nat) (item : α), items[other]? = some item →
      score item ≤ score best ∧ (other < place → score item < score best) := by
  rw [bestOf, List.head?_filter, List.find?_eq_some_iff_getElem] at first
  obtain ⟨isBest, place, inside, here, before⟩ := first
  rw [decide_eq_true_eq] at isBest
  refine ⟨place, List.getElem?_eq_some_iff.mpr ⟨inside, here⟩, fun other item there => ?_⟩
  have atMost : score item ≤ score best := by
    rw [isBest]
    exact score_le_max score items item (List.mem_of_getElem? there)
  refine ⟨atMost, fun earlier => lt_of_le_of_ne atMost fun same => ?_⟩
  obtain ⟨bound, isItem⟩ := List.getElem?_eq_some_iff.mp there
  have below := before other earlier
  rw [isItem, same, isBest] at below
  simp at below

theorem exists_head?_bestOf (items : List α) (nonempty : items ≠ []) :
    ∃ best, (bestOf score items).head? = some best := by
  obtain ⟨item, member, isBest⟩ := exists_score_max score items nonempty
  have kept : item ∈ bestOf score items := List.mem_filter.mpr ⟨member, decide_eq_true isBest⟩
  cases listed : bestOf score items with
  | nil =>
      rw [listed] at kept
      cases kept
  | cons best rest => exact ⟨best, rfl⟩

theorem bestOf_eq_nil_iff (items : List α) : bestOf score items = [] ↔ items = [] := by
  constructor
  · intro none
    by_contra nonempty
    obtain ⟨best, first⟩ := exists_head?_bestOf score items nonempty
    rw [none] at first
    cases first
  · rintro rfl
    rfl

/-- The first of the best satisfies a predicate exactly when the items that do not are outranked. -/
theorem head?_bestOf_holds_iff (holds : α → Prop) (items : List α) (best : α)
    (first : (bestOf score items).head? = some best) :
    holds best ↔ Outranked score holds items := by
  obtain ⟨place, here, ahead⟩ := head?_bestOf score items best first
  constructor
  · intro held other item there fails
    obtain ⟨atMost, before⟩ := ahead other item there
    refine ⟨place, best, here, held, ?_⟩
    rcases lt_or_eq_of_le atMost with less | same
    · exact .inl less
    · refine .inr ⟨same, Nat.lt_of_not_le fun behind => ?_⟩
      rcases Nat.lt_or_eq_of_le behind with earlier | rfl
      · exact Nat.ne_of_lt (before earlier) same
      · cases here.symm.trans there
        exact fails held
  · intro outranked
    by_contra fails
    obtain ⟨other, better, there, _, higher | ⟨same, earlier⟩⟩ := outranked place best here fails
    · exact Nat.not_le_of_lt higher (ahead other better there).1
    · exact Nat.ne_of_lt ((ahead other better there).2 earlier) same.symm

end VgiWorker
