import VgiWorker.Arrow.Value

/-!
# Sorting strings

`<` on strings is the lexicographic order of their code units, and `sort`
without a comparison puts strings in it.
-/

set_option autoImplicit false

namespace VgiWorker.Arrow

open VgiWorker.Js

theorem textLess_iff (left right : Text) :
    textLess left right = true ↔ Ord.compare left right = .lt := by
  induction left generalizing right with
  | nil => cases right <;> simp [textLess]
  | cons unit units ih =>
      cases right with
      | nil => simp [textLess]
      | cons other others =>
          rw [textLess, List.compare_cons_cons]
          by_cases same : unit = other
          · subst same
            rw [if_pos rfl, ih, Std.ReflOrd.compare_self]
            rfl
          · have order : Ord.compare unit other = .lt ↔ unit < other := by
              refine ⟨fun less => ?_, fun less => if_pos less⟩
              by_contra notLess
              have given : Ord.compare unit other = if unit = other then .eq else .gt :=
                if_neg notLess
              rw [given, if_neg same] at less
              cases less
            have notEq : Ord.compare unit other ≠ .eq := fun equal =>
              same (Std.LawfulEqOrd.eq_of_compare equal)
            rw [if_neg same, decide_eq_true_iff, ← UInt16.lt_iff_toNat_lt, ← order]
            cases found : Ord.compare unit other with
            | eq => exact absurd found notEq
            | _ => exact Iff.rfl

/-- `[...new Set(strings)].sort()`. -/
def sortedSet (strings : List Text) : List Text :=
  strings.eraseDups.mergeSort fun left right => !textLess right left

theorem mem_sortedSet (strings : List Text) (string : Text) :
    string ∈ sortedSet strings ↔ string ∈ strings := by
  simp [sortedSet]

private theorem not_textLess_iff (left right : Text) :
    (!textLess right left) = true ↔ (Ord.compare left right).isLE = true := by
  have swapped : Ord.compare right left = (Ord.compare left right).swap := Std.OrientedCmp.eq_swap
  rw [Bool.not_eq_true', Bool.eq_false_iff, ne_eq, textLess_iff, swapped]
  cases Ord.compare left right <;> decide

theorem nodup_eraseDups (strings : List Text) : strings.eraseDups.Nodup := by
  induction sized : strings.length using Nat.strong_induction_on generalizing strings with
  | _ size ih =>
      cases strings with
      | nil => simp
      | cons first rest =>
          have shorter : (rest.filter fun string => !string == first).length < size := by
            have bound := List.length_filter_le (fun string => !string == first) rest
            rw [← sized, List.length_cons]
            omega
          rw [List.eraseDups_cons, List.nodup_cons]
          exact ⟨by simp, ih _ shorter _ rfl⟩

/-- A sorted set is strictly ascending. -/
theorem pairwise_sortedSet (strings : List Text) :
    (sortedSet strings).Pairwise fun left right => textLess left right = true := by
  have ascending : (sortedSet strings).Pairwise fun left right => !textLess right left :=
    List.pairwise_mergeSort (fun left middle right first second => by
      rw [not_textLess_iff] at *
      exact Std.TransCmp.isLE_trans first second)
    (fun left right => by
      have swapped : Ord.compare right left = (Ord.compare left right).swap :=
        Std.OrientedCmp.eq_swap
      rw [Bool.or_eq_true, not_textLess_iff, not_textLess_iff, swapped]
      cases Ord.compare left right <;> decide) strings.eraseDups
  have distinct : (sortedSet strings).Pairwise (· ≠ ·) :=
    (List.mergeSort_perm _ _).nodup_iff.2 (nodup_eraseDups strings)
  refine (ascending.and distinct).imp fun {left right} both => ?_
  have atMost := (not_textLess_iff left right).1 both.1
  rw [textLess_iff]
  cases order : Ord.compare left right with
  | lt => rfl
  | eq => exact absurd (Std.LawfulEqOrd.eq_of_compare order) both.2
  | gt => simp [order] at atMost

end VgiWorker.Arrow
