import Mathlib.Data.List.Basic
import Mathlib.Tactic.Common

/-!
# The first difference of two lists

Lexicographic order is decided where two lists first differ, or by their
lengths when one continues the other. So is the order of lists written out
element by element, when no element's text continues another's.
-/

set_option autoImplicit false

namespace VgiWorker.FirstDifference

private theorem compare_zero_succ (length : Nat) : compare 0 (length + 1) = .lt :=
  Nat.compare_eq_lt.mpr (Nat.succ_pos length)

private theorem compare_succ_zero (length : Nat) : compare (length + 1) 0 = .gt :=
  Nat.compare_eq_gt.mpr (Nat.succ_pos length)

private theorem compare_succ_succ (left right : Nat) :
    compare (left + 1) (right + 1) = compare left right := by
  rw [Nat.compare_eq_ite_lt, Nat.compare_eq_ite_lt]
  simp

section

variable {α : Type} [DecidableEq α]

/-- The first two elements that differ at one position. -/
def firstDifference : List α → List α → Option (α × α)
  | left :: leftRest, right :: rightRest =>
      if left = right then firstDifference leftRest rightRest else some (left, right)
  | _, _ => none

example : firstDifference [1, 2] [1, 3] = some (2, 3) := by simp [firstDifference]

theorem firstDifference_ne (left right : List α) (first second : α)
    (found : firstDifference left right = some (first, second)) : first ≠ second := by
  induction left generalizing right with
  | nil => cases found
  | cons head rest ih =>
      cases right with
      | nil => cases found
      | cons other others =>
          rw [firstDifference] at found
          split at found
          · exact ih others found
          · rename_i different
            cases found
            exact different

/-- How two lists compare when `order` compares the elements at their first difference. -/
def decideAt (order : α → α → Ordering) (left right : List α) : Ordering :=
  match firstDifference left right with
  | some (first, second) => order first second
  | none => compare left.length right.length

theorem decideAt_cons_same (order : α → α → Ordering) (head : α) (left right : List α) :
    decideAt order (head :: left) (head :: right) = decideAt order left right := by
  simp only [decideAt, firstDifference, if_true, List.length_cons, compare_succ_succ]

theorem decideAt_cons_ne (order : α → α → Ordering) (first second : α) (left right : List α)
    (different : first ≠ second) :
    decideAt order (first :: left) (second :: right) = order first second := by
  simp only [decideAt, firstDifference, if_neg different]

theorem decideAt_eq_decideAt (order other : α → α → Ordering) (left right : List α) :
    decideAt order left right = decideAt other left right ↔
      ∀ first second, firstDifference left right = some (first, second) →
        order first second = other first second := by
  unfold decideAt
  cases found : firstDifference left right with
  | none => simp
  | some pair =>
      obtain ⟨first, second⟩ := pair
      simp

theorem decideAt_eq_iff (order : α → α → Ordering)
    (separates : ∀ first second, first ≠ second → order first second ≠ .eq) (left right : List α) :
    decideAt order left right = .eq ↔ left = right := by
  induction left generalizing right with
  | nil =>
      cases right with
      | nil => exact iff_of_true rfl rfl
      | cons other others =>
          refine iff_of_false (fun equal => ?_) nofun
          cases (compare_zero_succ others.length).symm.trans equal
  | cons head rest ih =>
      cases right with
      | nil =>
          refine iff_of_false (fun equal => ?_) nofun
          cases (compare_succ_zero rest.length).symm.trans equal
      | cons other others =>
          by_cases same : head = other
          · subst same
            rw [decideAt_cons_same, ih, List.cons.injEq, and_iff_right rfl]
          · rw [decideAt_cons_ne _ _ _ _ _ same]
            exact iff_of_false (separates head other same) fun equal => same (List.cons.inj equal).1

variable [Ord α] [Std.LawfulEqOrd α]

theorem compare_eq_decideAt (left right : List α) :
    compare left right = decideAt compare left right := by
  induction left generalizing right with
  | nil =>
      cases right with
      | nil => rfl
      | cons other others => exact (compare_zero_succ others.length).symm
  | cons head rest ih =>
      cases right with
      | nil => exact (compare_succ_zero rest.length).symm
      | cons other others =>
          rw [List.compare_cons_cons]
          by_cases same : head = other
          · subst same
            rw [decideAt_cons_same, ← ih, Std.ReflOrd.compare_self]
            rfl
          · rw [decideAt_cons_ne _ _ _ _ _ same]
            cases order : compare head other with
            | eq => exact absurd (Std.LawfulEqOrd.eq_of_compare order) same
            | _ => rfl

end

/-! ## Lists written out -/

section

variable {α β : Type} [DecidableEq α] [Ord β]

theorem compare_append_left [Std.ReflOrd β] (start leftTail rightTail : List β) :
    compare (start ++ leftTail) (start ++ rightTail) = compare leftTail rightTail := by
  induction start with
  | nil => rfl
  | cons head rest ih =>
      rw [List.cons_append, List.cons_append, List.compare_cons_cons, Std.ReflOrd.compare_self, ih]
      rfl

/-- Lists whose elements' texts never continue one another are ordered at their first
difference. -/
theorem compare_flatMap (encode : α → List β) (nonempty : ∀ element, encode element ≠ [])
    [Std.LawfulEqOrd β] [Std.OrientedOrd β]
    (separates : ∀ first second, first ≠ second → ∀ leftTail rightTail,
      compare (encode first ++ leftTail) (encode second ++ rightTail) =
        compare (encode first) (encode second)) (left right : List α) :
    compare (left.flatMap encode) (right.flatMap encode) =
      decideAt (fun first second => compare (encode first) (encode second)) left right := by
  induction left generalizing right with
  | nil =>
      cases right with
      | nil => rfl
      | cons other others =>
          obtain ⟨unit, units, written⟩ := List.exists_cons_of_ne_nil (nonempty other)
          simp [written, decideAt, firstDifference, compare_zero_succ]
  | cons head rest ih =>
      cases right with
      | nil =>
          obtain ⟨unit, units, written⟩ := List.exists_cons_of_ne_nil (nonempty head)
          simp [written, decideAt, firstDifference, compare_succ_zero]
      | cons other others =>
          rw [List.flatMap_cons, List.flatMap_cons]
          by_cases same : head = other
          · subst same
            rw [compare_append_left, ih, decideAt_cons_same]
          · rw [separates head other same, decideAt_cons_ne _ _ _ _ _ same]

end

section

variable {β : Type} [Ord β] [Std.LawfulEqOrd β] [Std.OrientedOrd β]

/-- What follows two texts does not matter to their order when it starts with a separator that
comes before all they are made of. -/
theorem compare_append_delimited (separator : β) (left right leftTail rightTail : List β)
    (leftAbove : ∀ unit ∈ left, compare separator unit = .lt)
    (rightAbove : ∀ unit ∈ right, compare separator unit = .lt)
    (leftEnds : ∀ unit, leftTail.head? = some unit → unit = separator)
    (rightEnds : ∀ unit, rightTail.head? = some unit → unit = separator)
    (different : left ≠ right) :
    compare (left ++ leftTail) (right ++ rightTail) = compare left right := by
  induction left generalizing right with
  | nil =>
      cases right with
      | nil => exact absurd rfl different
      | cons other others =>
          cases leftTail with
          | nil => rfl
          | cons unit units =>
              rw [leftEnds unit rfl, List.nil_append, List.cons_append, List.compare_cons_cons,
                rightAbove other List.mem_cons_self]
              rfl
  | cons head rest ih =>
      cases right with
      | nil =>
          cases rightTail with
          | nil => rfl
          | cons unit units =>
              rw [rightEnds unit rfl, List.nil_append, List.cons_append, List.compare_cons_cons,
                Std.OrientedOrd.eq_swap, leftAbove head List.mem_cons_self]
              rfl
      | cons other others =>
          rw [List.cons_append, List.cons_append, List.compare_cons_cons, List.compare_cons_cons]
          cases order : compare head other with
          | eq =>
              have same := Std.LawfulEqOrd.eq_of_compare order
              rw [ih others (fun unit member => leftAbove unit (List.mem_cons_of_mem _ member))
                (fun unit member => rightAbove unit (List.mem_cons_of_mem _ member))
                (fun sameRest => different (by rw [same, sameRest]))]
          | _ => rfl

end

end VgiWorker.FirstDifference
