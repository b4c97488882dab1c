import Mathlib.Data.List.Forall2
import Mathlib.Tactic.Common

/-!
# Sequenced results

A sequence of fallible steps succeeds exactly when each of its steps does.
-/

set_option autoImplicit false

namespace VgiWorker

variable {Failure α β : Type}

theorem except_bind_ok (step : Except Failure α) (next : α → Except Failure β) (result : β)
    (success : (step >>= next) = .ok result) :
    ∃ value, step = .ok value ∧ next value = .ok result := by
  cases step with
  | error failure => cases success
  | ok value => exact ⟨value, rfl, success⟩

@[simp] theorem except_ok_bind (value : α) (next : α → Except Failure β) :
    ((Except.ok value : Except Failure α) >>= next) = next value := rfl

@[simp] theorem except_error_bind (failure : Failure) (next : α → Except Failure β) :
    ((Except.error failure : Except Failure α) >>= next) = .error failure := rfl

theorem except_mapError_ok {Other : Type} (wrap : Failure → Other) (step : Except Failure α)
    (value : α) : step.mapError wrap = .ok value ↔ step = .ok value := by
  cases step with
  | error failure => exact ⟨nofun, nofun⟩
  | ok result => exact ⟨fun same => by cases same; rfl, fun same => by cases same; rfl⟩

theorem except_mapM_each (step : α → Except Failure β) (inputs : List α) (results : List β)
    (success : inputs.mapM step = .ok results) :
    ∀ input ∈ inputs, ∃ result ∈ results, step input = .ok result := by
  induction inputs generalizing results with
  | nil => simp
  | cons first rest ih =>
      rw [List.mapM_cons] at success
      obtain ⟨result, here, success⟩ := except_bind_ok _ _ _ success
      obtain ⟨others, later, success⟩ := except_bind_ok _ _ _ success
      cases success
      intro input member
      rcases List.mem_cons.mp member with rfl | member
      · exact ⟨result, List.mem_cons_self, here⟩
      · obtain ⟨found, foundMem, step⟩ := ih others later input member
        exact ⟨found, List.mem_cons_of_mem _ foundMem, step⟩

theorem except_mapM_sources (step : α → Except Failure β) (inputs : List α) (results : List β)
    (success : inputs.mapM step = .ok results) :
    ∀ result ∈ results, ∃ input ∈ inputs, step input = .ok result := by
  induction inputs generalizing results with
  | nil =>
      cases success
      simp
  | cons first rest ih =>
      rw [List.mapM_cons] at success
      obtain ⟨result, here, success⟩ := except_bind_ok _ _ _ success
      obtain ⟨others, later, success⟩ := except_bind_ok _ _ _ success
      cases success
      intro other member
      rcases List.mem_cons.mp member with rfl | member
      · exact ⟨first, List.mem_cons_self, here⟩
      · obtain ⟨input, inputMem, step⟩ := ih others later other member
        exact ⟨input, List.mem_cons_of_mem _ inputMem, step⟩

/-- Steps that all succeed, with known results. -/
theorem except_mapM_eq (step : α → Except Failure β) (result : α → β) (inputs : List α)
    (each : ∀ input ∈ inputs, step input = .ok (result input)) :
    inputs.mapM step = .ok (inputs.map result) := by
  induction inputs with
  | nil => rfl
  | cons input rest ih =>
      rw [List.mapM_cons, each input List.mem_cons_self,
        ih fun other member => each other (List.mem_cons_of_mem _ member)]
      rfl

/-- The results of a sequence of steps, one by one. -/
theorem except_mapM_iff (step : α → Except Failure β) (inputs : List α) (results : List β) :
    inputs.mapM step = .ok results ↔
      List.Forall₂ (fun input result => step input = .ok result) inputs results := by
  induction inputs generalizing results with
  | nil => exact ⟨fun success => by cases success; exact .nil, fun related => by cases related; rfl⟩
  | cons first rest ih =>
      rw [List.mapM_cons]
      constructor
      · intro success
        obtain ⟨result, here, success⟩ := except_bind_ok _ _ _ success
        obtain ⟨others, later, success⟩ := except_bind_ok _ _ _ success
        cases success
        exact .cons here ((ih others).mp later)
      · intro related
        cases related with
        | cons here later =>
            rw [here, except_ok_bind, (ih _).mpr later]
            rfl

theorem except_mapM_getElem? (step : α → Except Failure β) (inputs : List α) (results : List β)
    (success : inputs.mapM step = .ok results) (index : Nat) (input : α)
    (here : inputs[index]? = some input) :
    ∃ result, results[index]? = some result ∧ step input = .ok result := by
  induction inputs generalizing results index with
  | nil => cases here
  | cons first rest ih =>
      rw [List.mapM_cons] at success
      obtain ⟨result, made, success⟩ := except_bind_ok _ _ _ success
      obtain ⟨others, later, success⟩ := except_bind_ok _ _ _ success
      cases success
      cases index with
      | zero =>
          cases here
          exact ⟨result, rfl, made⟩
      | succ index => exact ih others later index here

theorem option_mapM_iff (step : α → Option β) (inputs : List α) (results : List β) :
    inputs.mapM step = some results ↔
      List.Forall₂ (fun input result => step input = some result) inputs results := by
  induction inputs generalizing results with
  | nil => exact ⟨fun success => by cases success; exact .nil, fun related => by cases related; rfl⟩
  | cons first rest ih =>
      rw [List.mapM_cons]
      constructor
      · intro success
        obtain ⟨result, here, success⟩ := Option.bind_eq_some_iff.mp success
        obtain ⟨others, later, success⟩ := Option.bind_eq_some_iff.mp success
        cases success
        exact .cons here ((ih others).mp later)
      · intro related
        cases related with
        | cons here later =>
            rw [here, (ih _).mpr later]
            rfl

theorem except_bind_exists (step : Except Failure α) (next : α → Except Failure β)
    (first : ∃ value, step = .ok value) (rest : ∀ value, step = .ok value →
      ∃ result, next value = .ok result) : ∃ result, (step >>= next) = .ok result := by
  obtain ⟨value, here⟩ := first
  obtain ⟨result, later⟩ := rest value here
  exact ⟨result, by rw [here, except_ok_bind, later]⟩

theorem except_mapM_exists (step : α → Except Failure β) (inputs : List α)
    (each : ∀ input ∈ inputs, ∃ result, step input = .ok result) :
    ∃ results, inputs.mapM step = .ok results := by
  induction inputs with
  | nil => exact ⟨[], rfl⟩
  | cons input rest ih =>
      obtain ⟨result, here⟩ := each input List.mem_cons_self
      obtain ⟨results, later⟩ := ih fun other member => each other (List.mem_cons_of_mem _ member)
      exact ⟨result :: results, by rw [List.mapM_cons, here, except_ok_bind, later]; rfl⟩

/-- A fold succeeds exactly when every step can, if what a step has been given so far does not
matter. -/
theorem except_foldlM_exists_iff (step : β → α → Except Failure β) (holds : α → Prop)
    (each : ∀ state item, (∃ next, step state item = .ok next) ↔ holds item) (items : List α)
    (state : β) : (∃ result, items.foldlM step state = .ok result) ↔ ∀ item ∈ items, holds item := by
  induction items generalizing state with
  | nil => exact iff_of_true ⟨state, rfl⟩ (fun _ member => absurd member List.not_mem_nil)
  | cons item rest ih =>
      rw [List.foldlM_cons, List.forall_mem_cons, ← each state item]
      constructor
      · rintro ⟨result, folded⟩
        obtain ⟨next, here, folded⟩ := except_bind_ok _ _ _ folded
        exact ⟨⟨next, here⟩, (ih next).mp ⟨result, folded⟩⟩
      · rintro ⟨⟨next, here⟩, later⟩
        obtain ⟨result, folded⟩ := (ih next).mpr later
        exact ⟨result, by rw [here, except_ok_bind, folded]⟩

theorem except_foldlM_each (step : β → α → Except Failure β) (inputs : List α)
    (initial result : β) (success : inputs.foldlM step initial = .ok result) :
    ∀ input ∈ inputs, ∃ before after, step before input = .ok after := by
  induction inputs generalizing initial with
  | nil => exact nofun
  | cons first rest ih =>
      rw [List.foldlM_cons] at success
      obtain ⟨next, here, later⟩ := except_bind_ok _ _ _ success
      exact List.forall_mem_cons.2 ⟨⟨initial, next, here⟩, ih next later⟩

/-- Steps that agree on every input of the sequence. -/
theorem except_mapM_congr (step other : α → Except Failure β) (inputs : List α)
    (same : ∀ input ∈ inputs, step input = other input) : inputs.mapM step = inputs.mapM other := by
  induction inputs with
  | nil => rfl
  | cons input rest ih =>
      rw [List.mapM_cons, List.mapM_cons, same input List.mem_cons_self,
        ih fun later member => same later (List.mem_cons_of_mem _ member)]

/-- Results that are all made into something else. -/
theorem except_mapM_map {γ : Type} (step : α → Except Failure β) (made : β → γ)
    (inputs : List α) :
    inputs.mapM (fun input => step input >>= fun result => .ok (made result)) =
      (inputs.mapM step >>= fun results => .ok (results.map made)) := by
  induction inputs with
  | nil => rfl
  | cons input rest ih =>
      rw [List.mapM_cons, List.mapM_cons, ih]
      cases step input with
      | error failure => rfl
      | ok result => cases rest.mapM step with | error failure => rfl | ok results => rfl

/-- Steps that another step takes back, each where it is accepted. -/
theorem except_mapM_back (step : α → Except Failure β) (back : β → Except Failure α)
    (inputs : List α) (results : List β) (success : inputs.mapM step = .ok results)
    (each : ∀ input ∈ inputs, ∀ result, step input = .ok result → back result = .ok input) :
    results.mapM back = .ok inputs := by
  induction inputs generalizing results with
  | nil =>
      cases success
      rfl
  | cons input rest ih =>
      rw [List.mapM_cons] at success
      obtain ⟨result, here, success⟩ := except_bind_ok _ _ _ success
      obtain ⟨others, later, success⟩ := except_bind_ok _ _ _ success
      cases success
      rw [List.mapM_cons, each input List.mem_cons_self result here, except_ok_bind,
        ih others later fun other member => each other (List.mem_cons_of_mem _ member)]
      rfl

theorem forall₂_getElem? {R : α → β → Prop} {left : List α} {right : List β}
    (related : List.Forall₂ R left right) (index : Nat) (first : α)
    (here : left[index]? = some first) : ∃ second, right[index]? = some second ∧ R first second := by
  induction related generalizing index with
  | nil => cases here
  | @cons _ second _ _ relates _ ih =>
      cases index with
      | zero =>
          cases here
          exact ⟨second, rfl, relates⟩
      | succ index => exact ih index here

end VgiWorker
