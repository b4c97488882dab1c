import VgiWorker.Storage.Contract

/-!
# A durable object that keeps the contract

One set of tables and a memory of the attempts answered, with every scan in one
page.
-/

set_option autoImplicit false

namespace VgiWorker.Storage

open Js

namespace ReferenceObject

/-- The answer to an attempt. -/
inductive Remembered where
  | done
  | page (page : Page)
  | number (value : Int)
  | item (item : Option Text)
  deriving DecidableEq

structure State where
  tables : Tables Text
  answered : List (Text × Remembered)
  deriving DecidableEq

def apply {Data : Type} (tables : Tables Text) : Request Data → Tables Text × Data
  | .statePutMany scopeId ns items _ =>
      (items.foldl (fun after item => after.put scopeId ns item.1 item.2) tables, ())
  | .stateGetMany scopeId ns keys => (tables, some (keys.map (tables.value? scopeId ns)))
  | .stateScan scopeId ns _ =>
      (tables, { rows := some (tables.entries scopeId ns), nextAfter := none })
  | .stateDrain scopeId ns _ _ =>
      (tables.drain scopeId ns, { rows := some (tables.entries scopeId ns), nextAfter := none })
  | .stateAppend scopeId ns key item _ =>
      (tables.append (tables.logSequence + 1) scopeId ns key item, tables.logSequence + 1)
  | .stateLogScan scopeId ns key afterId none =>
      (tables, some (tables.logAfter scopeId ns key afterId))
  | .stateLogScan scopeId ns key afterId (some limit) =>
      (tables, some ((tables.logAfter scopeId ns key afterId).take limit.toNat))
  | .executionClear scopeId _ => (tables.clear scopeId, tables.clearCount scopeId)
  | .queuePush executionId items _ => (tables.push executionId items, items.length)
  | .queuePop executionId _ => (tables.pop executionId, tables.front? executionId)
  | .queueClear executionId _ => (tables.clearQueue executionId, tables.queueLength executionId)

def remember {Data : Type} : Request Data → Data → Remembered
  | .stateDrain .., page => .page page
  | .stateAppend .., value | .executionClear .., value | .queuePush .., value
  | .queueClear .., value => .number value
  | .queuePop .., item => .item item
  | .statePutMany .., _ | .stateGetMany .., _ | .stateScan .., _ | .stateLogScan .., _ => .done

/-- `fresh` where the memory is of another kind of request. -/
def recalled {Data : Type} : Request Data → Remembered → Data → Data
  | .stateDrain .., .page page, _ => page
  | .stateAppend .., .number value, _ | .executionClear .., .number value, _
  | .queuePush .., .number value, _ | .queueClear .., .number value, _ => value
  | .queuePop .., .item item, _ => item
  | _, _, fresh => fresh

def handle {Data : Type} (state : State) (request : Request Data) : State × Reply Data :=
  let (tables, data) := apply state.tables request
  match request.attemptId? with
  | none => (state, .ok data)
  | some id =>
      match state.answered.lookup id with
      | some remembered => (state, .ok (recalled request remembered data))
      | none => ({ tables, answered := (id, remember request data) :: state.answered }, .ok data)

end ReferenceObject

open ReferenceObject in
def referenceObject : DurableObject where
  State := State
  initial := { tables := Tables.empty, answered := [] }
  handle := handle

namespace ReferenceObject

theorem recalled_remember {Data : Type} (request : Request Data) (data fresh : Data)
    (attempts : request.attemptId? ≠ none) :
    recalled request (remember request data) fresh = data := by
  cases request with
  | stateGetMany | stateScan | stateLogScan => exact absurd rfl attempts
  | _ => rfl

theorem handle_read {Data : Type} (state : State) (request : Request Data)
    (reads : request.attemptId? = none) :
    handle state request = (state, .ok (apply state.tables request).2) := by
  simp [handle, reads]

theorem handle_fresh {Data : Type} (state : State) (request : Request Data) (id : Text)
    (attempt : request.attemptId? = some id) (fresh : state.answered.lookup id = none) :
    handle state request =
      ({ tables := (apply state.tables request).1,
         answered := (id, remember request (apply state.tables request).2) :: state.answered },
        .ok (apply state.tables request).2) := by
  simp [handle, attempt, fresh]

theorem handle_repeated {Data : Type} (state : State) (request : Request Data) :
    handle (handle state request).1 request = handle state request := by
  cases attempt : request.attemptId? with
  | none => rw [handle_read state request attempt]
            exact handle_read state request attempt
  | some id =>
      cases found : state.answered.lookup id with
      | some remembered => simp [handle, attempt, found]
      | none =>
          rw [handle_fresh state request id attempt found]
          simp [handle, attempt, recalled_remember request _ _ (by simp [attempt])]

theorem lookup_handle {Data : Type} (state : State) (request : Request Data) (id : Text)
    (seen : ((handle state request).1.answered.lookup id).isSome) :
    (state.answered.lookup id).isSome ∨ request.attemptId? = some id := by
  cases attempt : request.attemptId? with
  | none =>
      rw [handle_read state request attempt] at seen
      exact .inl seen
  | some own =>
      cases found : state.answered.lookup own with
      | some remembered =>
          simp only [handle, attempt, found] at seen
          exact .inl seen
      | none =>
          by_cases same : id = own
          · exact .inr (by rw [same])
          · rw [handle_fresh state request own attempt found] at seen
            simp only [List.lookup_cons, beq_eq_false_iff_ne.mpr same] at seen
            exact .inl seen

private theorem sameRows_refl (tables : Tables Text) : tables.SameRows tables :=
  ⟨.refl _, rfl, rfl, rfl⟩

private theorem answers_read {Data : Type} (state : State) (request : Request Data)
    (reads : request.attemptId? = none) :
    referenceObject.Answers State.tables state request (apply state.tables request).2 state.tables :=
  ⟨state, handle_read state request reads, sameRows_refl _⟩

private theorem answers_fresh {Data : Type} (state : State) (request : Request Data) (id : Text)
    (attempt : request.attemptId? = some id) (fresh : ¬ (state.answered.lookup id).isSome) :
    referenceObject.Answers State.tables state request (apply state.tables request).2
      (apply state.tables request).1 :=
  ⟨_, handle_fresh state request id attempt (Option.not_isSome_iff_eq_none.mp fresh),
    sameRows_refl _⟩

end ReferenceObject

open ReferenceObject in
def referenceContract : referenceObject.Contract where
  tables := State.tables
  seen state id := (state.answered.lookup id).isSome
  pages state scopeId ns := [state.tables.entries scopeId ns]
  initialTables := rfl
  initialSeen _ seen := by cases seen
  seenAfter state request id seen := lookup_handle state request id seen
  repeated state request := handle_repeated state request
  statePutMany state scopeId ns items id fresh :=
    answers_fresh state (.statePutMany scopeId ns items id) id rfl fresh
  stateGetMany state scopeId ns keys := answers_read state (.stateGetMany scopeId ns keys) rfl
  stateAppend state scopeId ns key item id fresh :=
    ⟨state.tables.logSequence + 1, Int.lt_add_one_iff.mpr (Int.le_refl _),
      answers_fresh state (.stateAppend scopeId ns key item id) id rfl fresh⟩
  stateLogScan state scopeId ns key afterId :=
    answers_read state (.stateLogScan scopeId ns key afterId none) rfl
  stateLogScanLimited state scopeId ns key afterId limit _ :=
    answers_read state (.stateLogScan scopeId ns key afterId (some limit)) rfl
  executionClear state scopeId id fresh :=
    answers_fresh state (.executionClear scopeId id) id rfl fresh
  queuePush state executionId items id fresh :=
    answers_fresh state (.queuePush executionId items id) id rfl fresh
  queuePop state executionId id fresh :=
    answers_fresh state (.queuePop executionId id) id rfl fresh
  queueClear state executionId id fresh :=
    answers_fresh state (.queueClear executionId id) id rfl fresh
  pagesRows state scopeId ns := by simp
  stateScan state scopeId ns :=
    .last (handle_read state (.stateScan scopeId ns none) rfl) ⟨.refl _, rfl, rfl, rfl⟩
  stateDrain state scopeId ns id fresh :=
    .last (handle_fresh state (.stateDrain scopeId ns none id) id rfl
      (Option.not_isSome_iff_eq_none.mp fresh)) ⟨.refl _, rfl, rfl, rfl⟩

end VgiWorker.Storage
