import Mathlib.Data.List.Basic

/-!
# Three-valued logic

Strong Kleene connectives. An unknown truth value is `none`.
-/

set_option autoImplicit false

namespace VgiWorker.Data.Kleene

abbrev Truth := Option Bool

def negate : Truth → Truth :=
  Option.map not

def meet : Truth → Truth → Truth
  | some false, _ => some false
  | some true, right => right
  | none, some false => some false
  | none, _ => none

def join : Truth → Truth → Truth
  | some true, _ => some true
  | some false, right => right
  | none, some true => some true
  | none, _ => none

/-- The conjunction of a list. -/
def all (truths : List Truth) : Truth :=
  truths.foldr meet (some true)

/-- The disjunction of a list. -/
def any (truths : List Truth) : Truth :=
  truths.foldr join (some false)

theorem meet_eq_true (left right : Truth) :
    meet left right = some true ↔ left = some true ∧ right = some true := by
  rcases left with _ | _ | _ <;> rcases right with _ | _ | _ <;> simp [meet]

theorem meet_eq_false (left right : Truth) :
    meet left right = some false ↔ left = some false ∨ right = some false := by
  rcases left with _ | _ | _ <;> rcases right with _ | _ | _ <;> simp [meet]

/-- De Morgan. -/
theorem negate_meet (left right : Truth) :
    negate (meet left right) = join (negate left) (negate right) := by
  rcases left with _ | _ | _ <;> rcases right with _ | _ | _ <;> rfl

theorem negate_negate (truth : Truth) : negate (negate truth) = truth := by
  rcases truth with _ | _ | _ <;> rfl

theorem all_eq_true (truths : List Truth) :
    all truths = some true ↔ ∀ truth ∈ truths, truth = some true := by
  induction truths with
  | nil => simp [all]
  | cons truth rest ih =>
      rw [all, List.foldr_cons, ← all, meet_eq_true, ih, List.forall_mem_cons]

theorem all_eq_false (truths : List Truth) : all truths = some false ↔ some false ∈ truths := by
  induction truths with
  | nil => simp [all]
  | cons truth rest ih =>
      rw [all, List.foldr_cons, ← all, meet_eq_false, ih, List.mem_cons, eq_comm]

theorem negate_all (truths : List Truth) : negate (all truths) = any (truths.map negate) := by
  induction truths with
  | nil => rfl
  | cons truth rest ih =>
      rw [all, List.foldr_cons, ← all, negate_meet, ih]
      rfl

/-- A disjunction is the negated conjunction of the negations. -/
theorem any_eq (truths : List Truth) : any truths = negate (all (truths.map negate)) := by
  rw [negate_all, List.map_map]
  congr 1
  exact (List.map_id'' negate_negate truths).symm

theorem negate_eq (truth : Truth) (value : Bool) :
    negate truth = some value ↔ truth = some !value := by
  rcases truth with _ | _ | _ <;> cases value <;> simp [negate]

theorem any_eq_true (truths : List Truth) : any truths = some true ↔ some true ∈ truths := by
  rw [any_eq, negate_eq, Bool.not_true, all_eq_false, List.mem_map]
  constructor
  · rintro ⟨truth, member, isFalse⟩
    rw [negate_eq] at isFalse
    exact isFalse ▸ member
  · exact fun member => ⟨some true, member, rfl⟩

theorem any_eq_false (truths : List Truth) :
    any truths = some false ↔ ∀ truth ∈ truths, truth = some false := by
  rw [any_eq, negate_eq, Bool.not_false, all_eq_true]
  constructor
  · intro each truth member
    exact (negate_eq truth true).mp (each _ (List.mem_map_of_mem member))
  · intro each other member
    obtain ⟨truth, inTruths, rfl⟩ := List.mem_map.mp member
    rw [each truth inTruths]
    rfl

end VgiWorker.Data.Kleene
