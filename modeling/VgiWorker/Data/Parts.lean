import Mathlib.Algebra.GroupWithZero.Nat
import Mathlib.Algebra.Order.BigOperators.Group.List
import Mathlib.Data.List.Basic

/-!
# Positions in a sequence of parts

A sequence held in parts is indexed through the sums of the lengths before each
part. A binary search in these sums finds the part that a position falls in.
-/

set_option autoImplicit false

namespace VgiWorker.Data

/-- The part that a position falls in, and the position within it. -/
def locate : List Nat → Nat → Option (Nat × Nat)
  | [], _ => none
  | length :: rest, index =>
      if index < length then some (0, index)
      else (locate rest (index - length)).map fun found => (found.1 + 1, found.2)

/-- The sums of the first lengths, from none of them to all. -/
def partialSums (lengths : List Nat) : List Nat :=
  (List.range (lengths.length + 1)).map fun count => (lengths.take count).sum

/-- Halves `[lo, hi)` towards the first index that is not `before`. -/
def bisect (before : Nat → Bool) (lo hi : Nat) : Nat :=
  if lo < hi then
    let mid := (lo + hi) / 2
    if before mid then bisect before (mid + 1) hi else bisect before lo mid
  else lo
termination_by hi - lo

theorem bisect_eq (before : Nat → Bool) (lo hi boundary : Nat) (low : lo ≤ boundary)
    (high : boundary ≤ hi) (below : ∀ index, index < boundary → before index = true)
    (above : ∀ index, boundary ≤ index → index < hi → before index = false) :
    bisect before lo hi = boundary := by
  induction lo, hi using bisect.induct before with
  | case1 lo hi nonempty mid upper ih =>
      have atMid : mid < boundary := by
        by_contra beyond
        have notBefore := above mid (by omega) (by dsimp only [mid]; omega)
        simp [notBefore] at upper
      rw [bisect, if_pos nonempty]
      simp only [mid] at upper
      simp only [upper, if_true]
      exact ih atMid high above
  | case2 lo hi nonempty mid lower ih =>
      have atMid : boundary ≤ mid := by
        by_contra inside
        exact lower (below mid (by omega))
      have shrunk : mid < hi := by
        dsimp only [mid]
        omega
      rw [bisect, if_pos nonempty]
      simp only [mid] at lower
      simp only [lower]
      exact ih low atMid fun index from_ upTo => above index from_ (by omega)
  | case3 lo hi empty =>
      rw [bisect, if_neg empty]
      omega

theorem getElem?_partialSums (lengths : List Nat) (count : Nat) (bound : count ≤ lengths.length) :
    (partialSums lengths)[count]? = some (lengths.take count).sum := by
  have inRange : count < lengths.length + 1 := by omega
  simp [partialSums, inRange]

theorem locate_some (lengths : List Nat) (index part position : Nat)
    (found : locate lengths index = some (part, position)) :
    ∃ length, lengths[part]? = some length ∧ position < length ∧
      (lengths.take part).sum + position = index := by
  induction lengths generalizing index part with
  | nil => simp [locate] at found
  | cons length rest ih =>
      simp only [locate] at found
      split at found
      · next inside =>
          cases found
          exact ⟨length, rfl, inside, by simp⟩
      · next beyond =>
          obtain ⟨⟨before, offset⟩, foundRest, same⟩ := Option.map_eq_some_iff.1 found
          cases same
          obtain ⟨held, atPart, bound, total⟩ := ih _ _ foundRest
          refine ⟨held, by simpa using atPart, bound, ?_⟩
          simp only [List.take_succ_cons, List.sum_cons]
          omega

theorem locate_isSome (lengths : List Nat) (index : Nat) :
    (locate lengths index).isSome ↔ index < lengths.sum := by
  induction lengths generalizing index with
  | nil => simp [locate]
  | cons length rest ih =>
      simp only [locate, List.sum_cons]
      split
      · simp only [Option.isSome_some, true_iff]
        omega
      · simp only [Option.isSome_map, ih]
        omega

theorem sum_take_le (lengths : List Nat) (count other : Nat) (le : count ≤ other) :
    (lengths.take count).sum ≤ (lengths.take other).sum := by
  have split := List.take_append_drop count (lengths.take other)
  rw [List.take_take, min_eq_left le] at split
  rw [← split, List.sum_append]
  omega

/-- The binary search in the partial sums finds the part. -/
theorem bisect_partialSums (lengths : List Nat) (index part position : Nat)
    (found : locate lengths index = some (part, position)) :
    bisect (fun mid => decide ((partialSums lengths)[mid + 1]?.any (· ≤ index))) 0
        lengths.length = part ∧
      (partialSums lengths)[part]? = some (index - position) ∧ position ≤ index := by
  obtain ⟨length, atPart, bound, total⟩ := locate_some lengths index part position found
  have inside : part < lengths.length := (List.getElem?_eq_some_iff.1 atPart).1
  have next : (lengths.take (part + 1)).sum = (lengths.take part).sum + length := by
    obtain ⟨_, held⟩ := List.getElem?_eq_some_iff.1 atPart
    rw [List.sum_take_succ _ _ inside, held]
  refine ⟨bisect_eq _ 0 _ part (Nat.zero_le _) inside.le ?_ ?_, ?_, by omega⟩
  · intro mid before
    have sums := sum_take_le lengths (mid + 1) part before
    rw [getElem?_partialSums lengths (mid + 1) (by omega)]
    simp only [Option.any_some, decide_eq_true_eq]
    omega
  · intro mid after upTo
    have sums := sum_take_le lengths (part + 1) (mid + 1) (by omega)
    rw [getElem?_partialSums lengths (mid + 1) (by omega)]
    simp only [Option.any_some, decide_eq_true_eq, decide_eq_false_iff_not]
    omega
  · rw [getElem?_partialSums lengths part inside.le]
    congr 1
    omega

end VgiWorker.Data
