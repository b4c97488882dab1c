import Mathlib.Data.List.Infix

/-!
# Where a sequence splits

A sequence cut at a delimiter splits in one way only when no delimiter can be
read across the cut.
-/

set_option autoImplicit false

namespace VgiWorker

variable {α : Type}

/-- The part before the first delimiter, and the rest. -/
theorem append_delimiter_inj (delimiter : α) (first second rest rest' : List α)
    (firstFree : delimiter ∉ first) (secondFree : delimiter ∉ second)
    (same : first ++ delimiter :: rest = second ++ delimiter :: rest') :
    first = second ∧ rest = rest' := by
  induction first generalizing second with
  | nil =>
      cases second with
      | nil => exact ⟨rfl, (List.cons.inj same).2⟩
      | cons element others =>
          obtain ⟨here, _⟩ := List.cons.inj same
          exact absurd (here ▸ List.mem_cons_self) secondFree
  | cons element others ih =>
      cases second with
      | nil =>
          obtain ⟨here, _⟩ := List.cons.inj same
          exact absurd (here ▸ List.mem_cons_self) firstFree
      | cons element' others' =>
          obtain ⟨sameElement, sameRest⟩ := List.cons.inj same
          obtain ⟨sameOthers, tails⟩ := ih others'
            (fun member => firstFree (List.mem_cons_of_mem _ member))
            (fun member => secondFree (List.mem_cons_of_mem _ member)) sameRest
          exact ⟨by rw [sameElement, sameOthers], tails⟩

/-- The part behind the last delimiter, and the part before. -/
theorem append_delimiter_inj_last (delimiter : α) (first second rest rest' : List α)
    (restFree : delimiter ∉ rest) (restFree' : delimiter ∉ rest')
    (same : first ++ delimiter :: rest = second ++ delimiter :: rest') :
    first = second ∧ rest = rest' := by
  have reversed : rest.reverse ++ delimiter :: first.reverse =
      rest'.reverse ++ delimiter :: second.reverse := by
    simpa using congrArg List.reverse same
  obtain ⟨rests, firsts⟩ := append_delimiter_inj delimiter _ _ _ _
    (by simpa using restFree) (by simpa using restFree') reversed
  exact ⟨List.reverse_inj.mp firsts, List.reverse_inj.mp rests⟩

/-- A field that does not run into its own marker. -/
def EndsAt (marker field : List α) : Prop :=
  ¬marker <:+: field ++ marker.dropLast

private theorem marker_early (marker first second rest rest' : List α)
    (shorter : first.length < second.length)
    (same : first ++ (marker ++ rest) = second ++ (marker ++ rest')) :
    marker <:+: second ++ marker.dropLast := by
  rcases marker.eq_nil_or_concat with rfl | ⟨others, last, rfl⟩
  · exact List.nil_infix
  · rw [List.concat_eq_append] at same ⊢
    -- Both sides, cut where the second marker lacks its last element.
    have longer : first ++ (others ++ [last]) <+: first ++ (others ++ [last] ++ rest) :=
      ⟨rest, by simp⟩
    have cut : second ++ others <+: second ++ (others ++ [last] ++ rest') :=
      ⟨[last] ++ rest', by simp⟩
    rw [same] at longer
    have within : first ++ (others ++ [last]) <+: second ++ others :=
      List.prefix_of_prefix_length_le longer cut (by simp; omega)
    rw [List.dropLast_concat]
    exact (List.suffix_append first (others ++ [last])).isInfix.trans within.isInfix

theorem append_marker_inj (marker first second rest rest' : List α)
    (firstEnds : EndsAt marker first) (secondEnds : EndsAt marker second)
    (same : first ++ (marker ++ rest) = second ++ (marker ++ rest')) :
    first = second ∧ rest = rest' := by
  have length : first.length = second.length := by
    rcases Nat.lt_trichotomy first.length second.length with less | equal | greater
    · exact absurd (marker_early marker first second rest rest' less same) secondEnds
    · exact equal
    · exact absurd (marker_early marker second first rest' rest greater same.symm) firstEnds
  obtain ⟨firstEq, rests⟩ := List.append_inj same length
  exact ⟨firstEq, List.append_cancel_left rests⟩

end VgiWorker
