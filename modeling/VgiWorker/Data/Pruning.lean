import Mathlib.Order.Bounds.Basic
import Mathlib.Data.Set.Basic

/-!
# Pruning to a closed set

Each item names the items it needs. Passes over a set drop the items that miss
one, until a pass drops nothing: what stays is the greatest closed subset.
-/

set_option autoImplicit false

namespace VgiWorker.Data

variable {Item : Type} [DecidableEq Item] (needs : Item → List Item)

/-- Every item of the set has what it needs in the set. -/
def Closed {Item : Type} (needs : Item → List Item) (items : Set Item) : Prop :=
  ∀ item ∈ items, ∀ needed ∈ needs item, needed ∈ items

/-- A pass over some items of a set, and whether it dropped any. -/
def prunePass : List Item → List Item → List Item × Bool
  | [], kept => (kept, false)
  | item :: rest, kept =>
      if (needs item).any fun needed => !kept.contains needed then
        ((prunePass rest (kept.erase item)).1, true)
      else prunePass rest kept

theorem prunePass_sublist (items kept : List Item) :
    (prunePass needs items kept).1.Sublist kept := by
  induction items generalizing kept with
  | nil => exact List.Sublist.refl kept
  | cons item rest ih =>
      rw [prunePass]
      split
      · exact (ih (kept.erase item)).trans List.erase_sublist
      · exact ih kept

private theorem prunePass_shorter (items kept : List Item) (within : items ⊆ kept)
    (dropped : (prunePass needs items kept).2 = true) :
    (prunePass needs items kept).1.length < kept.length := by
  induction items generalizing kept with
  | nil => cases dropped
  | cons item rest ih =>
      rw [prunePass] at dropped ⊢
      split
      · have shorter := List.length_erase_of_mem (within List.mem_cons_self)
        have present := List.length_pos_of_mem (within List.mem_cons_self)
        have later := (prunePass_sublist needs rest (kept.erase item)).length_le
        dsimp only
        omega
      · next complete =>
          rw [if_neg complete] at dropped
          exact ih kept (List.subset_of_cons_subset within) dropped

/-- A pass that drops nothing has found all that its items need. -/
private theorem prunePass_unchanged (items kept : List Item)
    (undropped : (prunePass needs items kept).2 = false) :
    (prunePass needs items kept).1 = kept ∧ ∀ item ∈ items, ∀ needed ∈ needs item, needed ∈ kept := by
  induction items with
  | nil => exact ⟨rfl, nofun⟩
  | cons item rest ih =>
      rw [prunePass] at undropped ⊢
      split
      · next missing =>
          rw [if_pos missing] at undropped
          cases undropped
      · next complete =>
          rw [if_neg complete] at undropped
          obtain ⟨same, found⟩ := ih undropped
          have here : ∀ needed ∈ needs item, needed ∈ kept := by simpa using complete
          exact ⟨same, List.forall_mem_cons.2 ⟨here, found⟩⟩

/-- An item of a closed part of the set misses nothing, so no pass drops it. -/
private theorem prunePass_keeps (items kept : List Item) (closed : Set Item)
    (isClosed : Closed needs closed) (within : ∀ item ∈ closed, item ∈ kept) :
    ∀ item ∈ closed, item ∈ (prunePass needs items kept).1 := by
  induction items generalizing kept with
  | nil => exact within
  | cons item rest ih =>
      rw [prunePass]
      split
      · next missing =>
          obtain ⟨needed, isNeeded, absent⟩ : ∃ needed ∈ needs item, needed ∉ kept := by
            simpa using missing
          have outside : item ∉ closed := fun member =>
            absent (within needed (isClosed item member needed isNeeded))
          refine ih _ fun other member => (List.mem_erase_of_ne ?_).2 (within other member)
          rintro rfl
          exact outside member
      · exact ih kept within

def prune (kept : List Item) : List Item :=
  if (prunePass needs kept kept).2 then prune (prunePass needs kept kept).1
  else (prunePass needs kept kept).1
termination_by kept.length
decreasing_by exact prunePass_shorter needs kept kept (List.Subset.refl kept) ‹_›

theorem prune_sublist (kept : List Item) : (prune needs kept).Sublist kept := by
  fun_induction prune needs kept with
  | case1 kept dropped ih => exact ih.trans (prunePass_sublist needs kept kept)
  | case2 kept undropped => exact prunePass_sublist needs kept kept

theorem prune_closed (kept : List Item) : Closed needs {item | item ∈ prune needs kept} := by
  fun_induction prune needs kept with
  | case1 kept dropped ih => exact ih
  | case2 kept undropped =>
      obtain ⟨same, found⟩ := prunePass_unchanged needs kept kept (by simpa using undropped)
      rw [same]
      exact found

theorem prune_isGreatest (kept : List Item) :
    IsGreatest {closed : Set Item | closed ⊆ {item | item ∈ kept} ∧ Closed needs closed}
      {item | item ∈ prune needs kept} := by
  refine ⟨⟨fun item member => (prune_sublist needs kept).subset member,
    prune_closed needs kept⟩, ?_⟩
  rintro closed ⟨within, isClosed⟩
  fun_induction prune needs kept with
  | case1 kept dropped ih => exact ih (prunePass_keeps needs kept kept closed isClosed within)
  | case2 kept undropped => exact prunePass_keeps needs kept kept closed isClosed within

end VgiWorker.Data
