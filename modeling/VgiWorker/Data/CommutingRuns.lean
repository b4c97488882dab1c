import Mathlib.Data.List.Perm.Basic
import VgiWorker.Data.Result

/-!
# Runs of commuting steps

A run of fallible steps that commute two by two, up to an equivalence of states, ends
alike in every order of its steps.
-/

set_option autoImplicit false

namespace VgiWorker

variable {State Step Failure : Type}

/-- Both refused, or both done with related results. -/
inductive Alike (Same : State → State → Prop) :
    Except Failure State → Except Failure State → Prop where
  | refused (left right : Failure) : Alike Same (.error left) (.error right)
  | done (left right : State) (same : Same left right) : Alike Same (.ok left) (.ok right)

namespace Alike

variable {Same : State → State → Prop}

theorem refl (reflexive : ∀ state, Same state state) (result : Except Failure State) :
    Alike Same result result := by
  cases result with
  | error failure => exact .refused failure failure
  | ok state => exact .done state state (reflexive state)

theorem trans (transitive : ∀ first second third, Same first second → Same second third →
      Same first third)
    (first second third : Except Failure State) (here : Alike Same first second)
    (later : Alike Same second third) : Alike Same first third := by
  cases here with
  | refused left right =>
      cases later with
      | refused _ last => exact .refused left last
  | done left right same =>
      cases later with
      | done _ last next => exact .done left last (transitive left right last same next)

/-- Related states are continued alike by steps that respect the relation. -/
theorem bind (next other : State → Except Failure State) (left right : Except Failure State)
    (alike : Alike Same left right)
    (respects : ∀ first second, Same first second → Alike Same (next first) (other second)) :
    Alike Same (left >>= next) (right >>= other) := by
  cases alike with
  | refused left right => exact .refused left right
  | done left right same => exact respects left right same

end Alike

/-- Doing two steps one after the other comes to the same in both orders. -/
def Commute (Same : State → State → Prop) (step : State → Step → Except Failure State)
    (first second : Step) : Prop :=
  ∀ state, Alike Same (step state first >>= (step · second)) (step state second >>= (step · first))

/-- Doing the first step does not change what the second plans to do. -/
def KeepsPlan (plan : State → Step → Except Failure (State → State)) (first second : Step) :
    Prop :=
  ∀ state perform, plan state first = .ok perform → plan (perform state) second = plan state second

/-- Steps commute where neither changes what the other plans to do, and what they do commutes. -/
theorem commute_of_plans {Same : State → State → Prop}
    {step : State → Step → Except Failure State}
    (plan : State → Step → Except Failure (State → State))
    (performed : ∀ state change, step state change = (plan state change).map (· state))
    (first second : Step)
    (secondKept : KeepsPlan plan first second) (firstKept : KeepsPlan plan second first)
    (swapped : ∀ state one two, plan state first = .ok one → plan state second = .ok two →
      Same (two (one state)) (one (two state))) :
    Commute Same step first second := by
  intro state
  rw [performed, performed]
  cases one : plan state first with
  | error failure =>
      cases two : plan state second with
      | error message => exact .refused failure message
      | ok perform =>
          change Alike _ (.error failure) (step (perform state) first)
          rw [performed, firstKept state perform two, one]
          exact .refused failure failure
  | ok perform =>
      change Alike _ (step (perform state) second) _
      rw [performed, secondKept state perform one]
      cases two : plan state second with
      | error message => exact .refused message message
      | ok other =>
          change Alike _ (.ok _) (step (other state) first)
          rw [performed, firstKept state other two, one]
          exact .done _ _ (swapped state perform other one two)

section

variable (plan : State → Step → Except Failure (State → State))

/-- A run is refused exactly when one of its steps would be refused at the start. -/
theorem foldlM_ok_iff (step : State → Step → Except Failure State)
    (performed : ∀ state change, step state change = (plan state change).map (· state))
    (changes : List Step) (kept : changes.Pairwise (KeepsPlan plan)) (state : State) :
    (∃ result, changes.foldlM step state = .ok result) ↔
      ∀ change ∈ changes, ∃ perform, plan state change = .ok perform := by
  induction changes generalizing state with
  | nil =>
      constructor
      · intro _ change member
        cases member
      · intro _
        exact ⟨state, rfl⟩
  | cons change rest ih =>
      obtain ⟨here, later⟩ := List.pairwise_cons.mp kept
      rw [List.foldlM_cons, performed, List.forall_mem_cons]
      cases planned : plan state change with
      | error failure =>
          constructor
          · intro ⟨result, success⟩
            cases success
          · intro ⟨⟨perform, success⟩, _⟩
            cases success
      | ok perform =>
          have others : (∀ other ∈ rest, ∃ next, plan (perform state) other = .ok next) ↔
              ∀ other ∈ rest, ∃ next, plan state other = .ok next := by
            refine forall₂_congr fun other member => ?_
            rw [here other member state perform planned]
          change (∃ result, rest.foldlM step (perform state) = .ok result) ↔ _
          rw [ih later (perform state), others]
          exact ⟨fun each => ⟨⟨perform, rfl⟩, each⟩, And.right⟩

end

section

variable (Same : State → State → Prop) (step : State → Step → Except Failure State)

def Respects (change : Step) : Prop :=
  ∀ left right, Same left right → Alike Same (step left change) (step right change)

theorem foldlM_respects (changes : List Step)
    (respects : ∀ change ∈ changes, Respects Same step change) (left right : State)
    (same : Same left right) :
    Alike Same (changes.foldlM step left) (changes.foldlM step right) := by
  induction changes generalizing left right with
  | nil => exact .done left right same
  | cons change rest ih =>
      rw [List.foldlM_cons, List.foldlM_cons]
      refine Alike.bind _ _ _ _ (respects change List.mem_cons_self left right same) ?_
      exact ih fun other member => respects other (List.mem_cons_of_mem _ member)

/-- A run ends alike in every order of its steps. -/
theorem foldlM_perm (equivalence : Equivalence Same) (changes others : List Step)
    (perm : changes.Perm others) (respects : ∀ change ∈ changes, Respects Same step change)
    (commutes : ∀ first ∈ changes, ∀ second ∈ changes, first ≠ second →
      Commute Same step first second) (state : State) :
    Alike Same (changes.foldlM step state) (others.foldlM step state) := by
  induction perm generalizing state with
  | nil => exact .done state state (equivalence.refl state)
  | cons change perm ih =>
      rw [List.foldlM_cons, List.foldlM_cons]
      cases step state change with
      | error failure => exact .refused failure failure
      | ok next =>
          refine ih (fun other member => respects other (List.mem_cons_of_mem _ member))
            (fun first firstMem second secondMem => ?_) next
          exact commutes first (List.mem_cons_of_mem _ firstMem) second
            (List.mem_cons_of_mem _ secondMem)
  | swap first second rest =>
      simp only [List.foldlM_cons]
      rw [← bind_assoc, ← bind_assoc]
      refine Alike.bind _ _ _ _ ?_ (foldlM_respects Same step rest fun other member =>
        respects other (List.mem_cons_of_mem _ (List.mem_cons_of_mem _ member)))
      by_cases equal : second = first
      · subst equal
        exact Alike.refl equivalence.refl _
      · exact commutes second List.mem_cons_self first
          (List.mem_cons_of_mem _ List.mem_cons_self) equal state
  | trans early late earlyIH lateIH =>
      have before := earlyIH respects commutes state
      have after := lateIH (fun other member => respects other (early.symm.subset member))
        (fun first firstMem second secondMem =>
          commutes first (early.symm.subset firstMem) second (early.symm.subset secondMem)) state
      have transitive : ∀ first second third, Same first second → Same second third →
          Same first third := fun _ _ _ here there => equivalence.trans here there
      exact Alike.trans transitive _ _ _ before after

end

end VgiWorker
