import Mathlib.Data.List.Basic
import Mathlib.Tactic.Common

/-!
# Positions of kept entries

A list from which entries are dropped, and where each kept entry stood. An
entry keeps its position exactly when nothing before it was dropped.
-/

set_option autoImplicit false

namespace VgiWorker.KeptPositions

variable {Entry Kept : Type}

/-- The positions of the entries that `keep` does not drop, counted from `start`. -/
def positionsFrom (keep : Entry → Option Kept) : Nat → List Entry → List Nat
  | _, [] => []
  | start, entry :: rest =>
      match keep entry with
      | some _ => start :: positionsFrom keep (start + 1) rest
      | none => positionsFrom keep (start + 1) rest

def positions (keep : Entry → Option Kept) (entries : List Entry) : List Nat :=
  positionsFrom keep 0 entries

def IsKept (keep : Entry → Option Kept) (entries : List Entry) (position : Nat) : Prop :=
  ((entries[position]?).bind keep).isSome

theorem isKept_succ (keep : Entry → Option Kept) (entry : Entry) (rest : List Entry) (index : Nat) :
    (∀ earlier ≤ index + 1, IsKept keep (entry :: rest) earlier) ↔
      (keep entry).isSome ∧ ∀ earlier ≤ index, IsKept keep rest earlier := by
  constructor
  · intro all
    exact ⟨all 0 (Nat.zero_le _), fun earlier within => all (earlier + 1) (Nat.succ_le_succ within)⟩
  · rintro ⟨first, others⟩ earlier within
    cases earlier with
    | zero => exact first
    | succ earlier => exact others earlier (Nat.le_of_succ_le_succ within)

theorem getElem?_positionsFrom (keep : Entry → Option Kept) (entries : List Entry)
    (start index : Nat) (kept : Kept) (found : (entries.filterMap keep)[index]? = some kept) :
    ∃ position, (positionsFrom keep start entries)[index]? = some (start + position) ∧
      (entries[position]?).bind keep = some kept ∧ index ≤ position ∧
      (position = index ↔ ∀ earlier ≤ index, IsKept keep entries earlier) := by
  induction entries generalizing start index with
  | nil => cases found
  | cons entry rest ih =>
      cases isKept : keep entry with
      | none =>
          rw [List.filterMap_cons_none isKept] at found
          obtain ⟨position, stands, source, below, _⟩ := ih (start + 1) index found
          refine ⟨position + 1, ?_, source, by omega, ?_⟩
          · rw [positionsFrom, isKept, stands, Nat.add_assoc, Nat.add_comm 1]
          · constructor
            · intro same
              omega
            · intro all
              have first := all 0 (Nat.zero_le index)
              simp [IsKept, isKept] at first
      | some value =>
          rw [List.filterMap_cons_some isKept] at found
          cases index with
          | zero =>
              refine ⟨0, ?_, ?_, Nat.le_refl 0, ?_⟩
              · rw [positionsFrom, isKept]
                rfl
              · exact isKept.trans found
              · refine ⟨fun _ earlier within => ?_, fun _ => rfl⟩
                rw [Nat.le_zero.mp within]
                exact Option.isSome_iff_exists.mpr ⟨value, isKept⟩
          | succ index =>
              obtain ⟨position, stands, source, below, exact⟩ := ih (start + 1) index found
              refine ⟨position + 1, ?_, source, by omega, ?_⟩
              · rw [positionsFrom, isKept, List.getElem?_cons_succ, stands, Nat.add_assoc,
                  Nat.add_comm 1]
              · rw [isKept_succ, ← exact, isKept]
                simp

/-- Where the entry at `index` of the kept ones stood. -/
theorem getElem?_positions (keep : Entry → Option Kept) (entries : List Entry) (index : Nat)
    (kept : Kept) (found : (entries.filterMap keep)[index]? = some kept) :
    ∃ position, (positions keep entries)[index]? = some position ∧
      (entries[position]?).bind keep = some kept ∧ index ≤ position ∧
      (position = index ↔ ∀ earlier ≤ index, IsKept keep entries earlier) := by
  obtain ⟨position, stands, rest⟩ := getElem?_positionsFrom keep entries 0 index kept found
  rw [Nat.zero_add] at stands
  exact ⟨position, stands, rest⟩

end VgiWorker.KeptPositions
