import VgiWorker.Data.Result

/-!
# Checks between effects

A list of items, each checked and then performed before the next one is looked at.
What was performed stays performed when a later item fails.
-/

set_option autoImplicit false

namespace VgiWorker

variable {Item Call State Failure : Type}

/-- A finished run: the state it left, the calls it made in order, and how it ended. -/
structure CheckedRun (State Call Failure : Type) where
  state : State
  calls : List Call
  outcome : Except Failure Unit

section

variable (check : Item → Except Failure Call) (perform : State → Call → Except Failure State)

/-- Check and perform, item by item; a call that fails leaves the state as it was. -/
def interleaved : State → List Item → CheckedRun State Call Failure
  | state, [] => ⟨state, [], .ok ()⟩
  | state, item :: rest =>
      match check item with
      | .error failure => ⟨state, [], .error failure⟩
      | .ok call =>
          match perform state call with
          | .error failure => ⟨state, [call], .error failure⟩
          | .ok next =>
              let run := interleaved next rest
              { run with calls := call :: run.calls }

def performAll : State → List Call → Except Failure State
  | state, [] => .ok state
  | state, call :: rest => do
      let next ← perform state call
      performAll next rest

/-- A run makes no call exactly when its first item is refused. -/
theorem interleaved_calls_nil (state : State) (items : List Item) :
    (interleaved check perform state items).calls = [] ↔
      ∀ item ∈ items.head?, ∃ failure, check item = .error failure := by
  cases items with
  | nil => exact iff_of_true rfl nofun
  | cons item rest =>
      rw [interleaved]
      cases checked : check item with
      | error failure => simp [checked]
      | ok call => cases performed : perform state call <;> simp [checked, performed]

/-- A run that ends well has checked and performed every item. -/
theorem interleaved_ok (state : State) (items : List Item)
    (ended : (interleaved check perform state items).outcome = .ok ()) :
    items.mapM check = .ok (interleaved check perform state items).calls ∧
      performAll perform state (interleaved check perform state items).calls =
        .ok (interleaved check perform state items).state := by
  induction items generalizing state with
  | nil => exact ⟨rfl, rfl⟩
  | cons item rest ih =>
      rw [interleaved] at ended ⊢
      cases checked : check item with
      | error failure =>
          rw [checked] at ended
          cases ended
      | ok call =>
          cases performed : perform state call with
          | error failure =>
              simp only [checked, performed] at ended
              cases ended
          | ok next =>
              simp only [checked, performed] at ended ⊢
              obtain ⟨calls, final⟩ := ih next ended
              refine ⟨?_, ?_⟩
              · rw [List.mapM_cons, checked, except_ok_bind, calls]
                rfl
              · rw [performAll, performed, except_ok_bind, final]

/-- Items that all check and perform make a run that ends well. -/
theorem interleaved_eq (state : State) (items : List Item) (calls : List Call) (final : State)
    (checked : items.mapM check = .ok calls) (performed : performAll perform state calls = .ok final) :
    interleaved check perform state items = ⟨final, calls, .ok ()⟩ := by
  induction items generalizing state calls with
  | nil =>
      cases checked
      cases performed
      rfl
  | cons item rest ih =>
      rw [List.mapM_cons] at checked
      obtain ⟨call, here, checked⟩ := except_bind_ok _ _ _ checked
      obtain ⟨others, later, checked⟩ := except_bind_ok _ _ _ checked
      cases checked
      obtain ⟨next, step, performed⟩ := except_bind_ok _ _ _ performed
      rw [interleaved]
      simp only [here, step, ih next others later performed]

end

end VgiWorker
