import Mathlib.Tactic.Common

/-!
# Runs of a guarded step function

A state machine given by a partial step function, run under a guard on its steps.
An invariant is proved for one step and carried to every state a run reaches.
-/

set_option autoImplicit false

namespace VgiWorker.Data

variable {State Action : Type}

/-- The states reached from `start` by steps that the guard lets through. -/
inductive Runs (step : State → Action → Option State) (allowed : State → Action → Prop)
    (start : State) : State → Prop
  | start : Runs step allowed start start
  | step {before after : State} (action : Action) :
      Runs step allowed start before → allowed before action →
        step before action = some after → Runs step allowed start after

/-- The state after the actions, where the guard lets each of them through. -/
def follow (step : State → Action → Option State) (allows : State → Action → Bool) :
    State → List Action → Option State
  | state, [] => some state
  | state, action :: rest =>
      if allows state action then (step state action).bind fun next => follow step allows next rest
      else none

namespace Runs

variable {step : State → Action → Option State} {allowed : State → Action → Prop} {start : State}

theorem invariant {Holds : State → Prop} (initially : Holds start)
    (kept : ∀ (before after : State) (action : Action), Holds before → allowed before action →
      step before action = some after → Holds after)
    {reached : State} (run : Runs step allowed start reached) : Holds reached := by
  induction run with
  | start => exact initially
  | step action _ guarded stepped inductionHypothesis =>
      exact kept _ _ action inductionHypothesis guarded stepped

theorem weaken {wider : State → Action → Prop}
    (included : ∀ (state : State) (action : Action), allowed state action → wider state action)
    {reached : State} (run : Runs step allowed start reached) : Runs step wider start reached := by
  induction run with
  | start => exact .start
  | step action _ guarded stepped inductionHypothesis =>
      exact .step action inductionHypothesis (included _ action guarded) stepped

theorem follow {allows : State → Action → Bool}
    (sound : ∀ (state : State) (action : Action), allows state action = true →
      allowed state action)
    {actions : List Action} {between reached : State} (run : Runs step allowed start between)
    (followed : Data.follow step allows between actions = some reached) :
    Runs step allowed start reached := by
  induction actions generalizing between with
  | nil =>
      cases followed
      exact run
  | cons action rest inductionHypothesis =>
      unfold Data.follow at followed
      split at followed
      · rename_i guarded
        obtain ⟨next, stepped, rest⟩ := Option.bind_eq_some_iff.mp followed
        exact inductionHypothesis (.step action run (sound between action guarded) stepped) rest
      · cases followed

end Runs

end VgiWorker.Data
