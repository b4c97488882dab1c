import Mathlib.Data.List.Basic

/-!
# Masked lists

The values of a list whose entry in a mask is set, and the positions they had.
-/

set_option autoImplicit false

namespace VgiWorker

variable {α : Type}

/-- The values at the set positions of a mask; a position past either end is dropped. -/
def keepMasked : List α → List Bool → List α
  | value :: values, keep :: mask =>
      if keep then value :: keepMasked values mask else keepMasked values mask
  | _, _ => []

@[simp] theorem keepMasked_nil (mask : List Bool) : keepMasked ([] : List α) mask = [] := by
  cases mask <;> rfl

theorem mem_of_keepMasked (values : List α) (mask : List Bool) (value : α)
    (member : value ∈ keepMasked values mask) : value ∈ values := by
  induction values generalizing mask with
  | nil =>
      rw [keepMasked_nil] at member
      cases member
  | cons first rest ih =>
      cases mask with
      | nil => cases member
      | cons keep mask =>
          cases keep with
          | true =>
              rcases List.mem_cons.mp member with here | later
              · exact here ▸ List.mem_cons_self
              · exact List.mem_cons_of_mem _ (ih mask later)
          | false => exact List.mem_cons_of_mem _ (ih mask member)

theorem length_keepMasked_le (values : List α) (mask : List Bool) :
    (keepMasked values mask).length ≤ values.length := by
  induction values generalizing mask with
  | nil => simp
  | cons first rest ih =>
      cases mask with
      | nil => simp [keepMasked]
      | cons keep mask =>
          have later := ih mask
          cases keep with
          | true => simpa [keepMasked] using later
          | false =>
              simp only [keepMasked, Bool.false_eq_true, if_false, List.length_cons]
              omega

/-- Only a mask that is set throughout keeps every value. -/
theorem length_keepMasked_eq_iff (values : List α) (mask : List Bool)
    (same : mask.length = values.length) :
    (keepMasked values mask).length = values.length ↔ ∀ keep ∈ mask, keep = true := by
  induction values generalizing mask with
  | nil =>
      rw [List.length_nil, List.length_eq_zero_iff] at same
      simp [same]
  | cons first rest ih =>
      cases mask with
      | nil => cases same
      | cons keep mask =>
          have later := ih mask (Nat.succ.inj same)
          cases keep with
          | true => simpa [keepMasked] using later
          | false =>
              have short := length_keepMasked_le rest mask
              simp only [keepMasked, Bool.false_eq_true, if_false, List.length_cons,
                List.forall_mem_cons, false_and, iff_false]
              omega

theorem keepMasked_of_all (values : List α) (mask : List Bool)
    (same : mask.length = values.length) (all : ∀ keep ∈ mask, keep = true) :
    keepMasked values mask = values := by
  induction values generalizing mask with
  | nil => exact keepMasked_nil mask
  | cons first rest ih =>
      cases mask with
      | nil => cases same
      | cons keep mask =>
          obtain ⟨here, later⟩ := List.forall_mem_cons.mp all
          rw [here, keepMasked, if_pos rfl, ih mask (Nat.succ.inj same) later]

private theorem keepMasked_range' (values : List α) (mask : List Bool) (start count index row : Nat)
    (kept : (keepMasked (List.range' start count) mask)[index]? = some row) :
    start ≤ row ∧ (keepMasked values mask)[index]? = values[row - start]? := by
  induction mask generalizing values start count index with
  | nil =>
      cases count <;> cases kept
  | cons keep mask ih =>
      cases count with
      | zero => cases kept
      | succ count =>
          rw [List.range'_succ] at kept
          have inRest (index : Nat)
              (kept : (keepMasked (List.range' (start + 1) count) mask)[index]? = some row) :
              start ≤ row ∧ (keepMasked values.tail mask)[index]? = values[row - start]? := by
            obtain ⟨later, agree⟩ := ih values.tail (start + 1) count index kept
            have position : row - (start + 1) + 1 = row - start := by omega
            exact ⟨Nat.le_of_succ_le later, by rw [agree, List.getElem?_tail, position]⟩
          cases keep with
          | false => cases values <;> simpa [keepMasked] using inRest index kept
          | true =>
              cases index with
              | zero =>
                  cases kept
                  refine ⟨Nat.le_refl _, ?_⟩
                  cases values with
                  | nil => simp
                  | cons first rest => simp [keepMasked]
              | succ index => cases values <;> simpa [keepMasked] using inRest index kept

/-- The value kept at some position is the one of the row kept there. -/
theorem keepMasked_row (values : List α) (mask : List Bool) (count index row : Nat)
    (kept : (keepMasked (List.range count) mask)[index]? = some row) :
    (keepMasked values mask)[index]? = values[row]? := by
  rw [List.range_eq_range'] at kept
  exact (keepMasked_range' values mask 0 count index row kept).2

end VgiWorker
