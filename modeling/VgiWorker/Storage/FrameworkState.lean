import VgiWorker.Storage.BoundStorage

/-!
# The framework's state beside the author's

What the framework left in the storage of an execution, and when the calls of the
author's functions leave it alone. The namespaces are shared and none is refused.
-/

set_option autoImplicit false

namespace VgiWorker.Storage

open Js

/-! ## Rows under one key -/

namespace Tables

variable {Blob : Type} [DecidableEq Blob] (tables : Tables Blob) (scopeId ns key value : Blob)

theorem value?_put : (tables.put scopeId ns key value).value? scopeId ns key = some value := by
  have replaced : (tables.functionState.filter fun row => ¬row.At scopeId ns key).find?
      (fun row => row.At scopeId ns key) = none := by
    rw [List.find?_eq_none]
    intro row member here
    exact of_decide_eq_true (List.mem_filter.mp member).2 (of_decide_eq_true here)
  simp only [value?, put, List.find?_append, replaced]
  simp [StateRow.At]

theorem value?_put_other (scope space name : Blob)
    (different : ¬(scope = scopeId ∧ space = ns ∧ name = key)) :
    (tables.put scope space name value).value? scopeId ns key = tables.value? scopeId ns key := by
  have kept : (tables.functionState.filter fun row => ¬row.At scope space name).find?
      (fun row => row.At scopeId ns key) =
        tables.functionState.find? fun row => row.At scopeId ns key := by
    rw [List.find?_filter]
    congr 1
    funext row
    by_cases here : row.At scopeId ns key
    · have elsewhere : ¬row.At scope space name := fun replaced => different
        ⟨replaced.1.symm.trans here.1, replaced.2.1.symm.trans here.2.1,
          replaced.2.2.symm.trans here.2.2⟩
      simp [here, elsewhere]
    · simp [here]
  simp only [value?, put, List.find?_append, kept]
  simp [StateRow.At, different]

theorem value?_drain_other (scope space : Blob) (different : ¬(scope = scopeId ∧ space = ns)) :
    (tables.drain scope space).value? scopeId ns key = tables.value? scopeId ns key := by
  simp only [value?, drain, List.find?_filter]
  congr 2
  funext row
  by_cases here : row.At scopeId ns key
  · have kept : ¬row.InNamespace scope space := fun within =>
      different ⟨within.1.symm.trans here.1, within.2.symm.trans here.2.1⟩
    simp [here, kept]
  · simp [here]

theorem value?_clear_other (scope : Blob) (different : scope ≠ scopeId) :
    (tables.clear scope).value? scopeId ns key = tables.value? scopeId ns key := by
  simp only [value?, clear, List.find?_filter]
  congr 2
  funext row
  by_cases here : row.At scopeId ns key
  · simp [here, Ne.symm different]
  · simp [here]

theorem value?_clear : (tables.clear scopeId).value? scopeId ns key = none := by
  simp only [value?, clear, Option.map_eq_none_iff, List.find?_filter, List.find?_eq_none]
  intro row _ here
  simp [StateRow.At] at here
  exact here.1 here.2.1

theorem entries_drain : (tables.drain scopeId ns).entries scopeId ns = [] := by
  simp [entries, drain, List.filter_filter]

theorem entries_clear : (tables.clear scopeId).entries scopeId ns = [] := by
  simp only [entries, clear, List.map_eq_nil_iff, List.filter_filter, List.filter_eq_nil_iff]
  intro row _ here
  simp [StateRow.InNamespace] at here
  exact here.2 here.1.1

variable (afterId : Int)

theorem logAfter_append (id : Int) :
    (tables.append id scopeId ns key value).logAfter scopeId ns key afterId =
      tables.logAfter scopeId ns key afterId ++ if afterId < id then [(id, value)] else [] := by
  simp only [logAfter, append, List.filter_append, List.map_append]
  congr 1
  by_cases later : afterId < id
  · simp [LogRow.After, later]
  · simp [LogRow.After, later]

theorem logAfter_append_other (id : Int) (scope space name : Blob)
    (different : ¬(scope = scopeId ∧ space = ns ∧ name = key)) :
    (tables.append id scope space name value).logAfter scopeId ns key afterId =
      tables.logAfter scopeId ns key afterId := by
  have outside : ¬LogRow.After ⟨id, scope, space, name, value⟩ scopeId ns key afterId :=
    fun here => different ⟨here.1, here.2.1, here.2.2.1⟩
  simp [logAfter, append, outside]

theorem logAfter_clear_other (scope : Blob) (different : scope ≠ scopeId) :
    (tables.clear scope).logAfter scopeId ns key afterId =
      tables.logAfter scopeId ns key afterId := by
  simp only [logAfter, clear, List.filter_filter]
  congr 1
  refine List.filter_congr fun row _ => ?_
  by_cases here : row.After scopeId ns key afterId
  · simp [here, Ne.symm different]
  · simp [here]

theorem logAfter_clear : (tables.clear scopeId).logAfter scopeId ns key afterId = [] := by
  simp only [logAfter, clear, List.map_eq_nil_iff, List.filter_filter, List.filter_eq_nil_iff]
  intro row _ here
  simp [LogRow.After] at here
  exact here.2 here.1.1

end Tables

/-! ## What the framework left -/

/-- The worker states by slot, the buffering init, and the batches of the streamed finalize with
the ids they were given. -/
structure FrameworkState where
  workers : List (Bytes × Bytes)
  bufferingInit : Option Bytes
  streamingFinalize : List (Int × Bytes)

namespace FrameworkState

def empty : FrameworkState :=
  { workers := [], bufferingInit := none, streamingFinalize := [] }

def put (left : FrameworkState) (slot state : Bytes) : FrameworkState :=
  { left with workers := left.workers.filter (fun worker => worker.1 ≠ slot) ++ [(slot, state)] }

/-- After the framework's own call, which was answered so. -/
def after (left : FrameworkState) (bound : BoundStorage) :
    FrameworkCall → Outcome → FrameworkState
  | .put pid state, _ =>
      match workerStateKey (bound.slot pid) with
      | .ok slot => left.put slot state
      | .error _ => left
  | .collect, .ok _ => { left with workers := [] }
  | .putBufferingInit payload, .ok _ => { left with bufferingInit := some payload }
  | .appendFinalized batch, .ok (.logId id) =>
      { left with streamingFinalize := left.streamingFinalize ++ [(id, batch)] }
  | .executionClear, .ok _ => empty
  | _, _ => left

end FrameworkState

/-! ## Runs -/

/-- A call on the execution's storage, from any of its connections, or an operation elsewhere. -/
inductive StorageStep where
  | user (substreamId : Option Bytes) (call : UserCall)
  | framework (substreamId : Option Bytes) (call : FrameworkCall)
  | elsewhere (operation : Operation)

structure SharedStorage where
  db : SqliteDb
  left : FrameworkState

namespace SharedStorage

def start : SharedStorage :=
  { db := Tables.empty, left := FrameworkState.empty }

variable (executionId : Bytes)

def step (storage : SharedStorage) : StorageStep → SharedStorage
  | .user substreamId call =>
      { storage with
        db := (FunctionStorageSqlite.perform storage.db
          (call.operation ⟨executionId, substreamId⟩)).1 }
  | .framework substreamId call =>
      let (db, answer) := FunctionStorageSqlite.perform storage.db
        (call.operation ⟨executionId, substreamId⟩)
      { db, left := storage.left.after ⟨executionId, substreamId⟩ call answer }
  | .elsewhere operation =>
      { storage with db := (FunctionStorageSqlite.perform storage.db operation).1 }

def run (storage : SharedStorage) (steps : List StorageStep) : SharedStorage :=
  steps.foldl (step executionId) storage

/-- Every read of the framework gives what the framework left, the worker states in any order, and
a `put` keeps the slots of the other substreams. -/
structure Isolated (storage : SharedStorage) : Prop where
  collect : (FunctionStorageSqlite.workerCollect storage.db executionId).2.Perm
    (storage.left.workers.map Prod.snd)
  workerScan : (FunctionStorageSqlite.workerScan storage.db executionId).Perm
    (storage.left.workers.map fun worker => (int64FromKey worker.1, worker.2))
  bufferingInit : FunctionStorageSqlite.stateGet storage.db executionId nsBufferingInit
    bufferingInitKey = storage.left.bufferingInit
  streamingFinalize : ∀ (afterId : Int) (limit : Option Int),
    FunctionStorageSqlite.stateLogScan storage.db executionId nsStreamingFinalize
      streamingFinalizeKey (some afterId) limit =
        let rows := storage.left.streamingFinalize.filter fun row => afterId < row.1
        limit.elim rows fun limit => FunctionStorageSqlite.sqlLimit limit rows
  substreams : ∀ (first second : Bytes) (pid : Number) (state : Bytes), first ≠ second →
    FunctionStorageSqlite.stateGet (FunctionStorageSqlite.perform storage.db
      (BoundStorage.put ⟨executionId, some first⟩ pid state)).1 executionId nsWorker second =
        FunctionStorageSqlite.stateGet storage.db executionId nsWorker second

end SharedStorage

/-- No row of the framework is written: its namespaces are left alone, or its keys in them. -/
def UserCall.SparesFramework : UserCall → Prop
  | .statePut ns key _ => ns ≠ nsWorker ∧ ¬(ns = nsBufferingInit ∧ key = bufferingInitKey)
  | .stateAppend ns key _ => ¬(ns = nsStreamingFinalize ∧ key = streamingFinalizeKey)
  | _ => True

def StorageStep.Within (executionId : Bytes) (allowed : UserCall → Prop) : StorageStep → Prop
  | .user _ call => allowed call
  | .framework _ _ => True
  | .elsewhere operation => operation.scope ≠ executionId

/-! ## Operations that leave a key alone -/

section

variable (scopeId ns key : Bytes)

private def Operation.SparesValue : Operation → Prop
  | .workerPut scope _ _ | .workerCollect scope => ¬(scope = scopeId ∧ nsWorker = ns)
  | .executionClear scope => scope ≠ scopeId
  | .statePut scope space name _ => ¬(scope = scopeId ∧ space = ns ∧ name = key)
  | _ => True

def Operation.SparesLog : Operation → Prop
  | .executionClear scope => scope ≠ scopeId
  | .stateAppend scope space name _ => ¬(scope = scopeId ∧ space = ns ∧ name = key)
  | _ => True

private theorem value?_perform (db : SqliteDb) (operation : Operation)
    (spares : operation.SparesValue scopeId ns key) :
    (FunctionStorageSqlite.perform db operation).1.value? scopeId ns key =
      db.value? scopeId ns key := by
  cases operation with
  | workerPut scope worker state =>
      simp only [FunctionStorageSqlite.perform, FunctionStorageSqlite.workerPut]
      cases workerStateKey worker with
      | error fault => rfl
      | ok slot =>
          exact db.value?_put_other scopeId ns key state scope nsWorker slot fun same =>
            spares ⟨same.1, same.2.1⟩
  | workerCollect scope => exact db.value?_drain_other scopeId ns key scope nsWorker spares
  | executionClear scope => exact db.value?_clear_other scopeId ns key scope spares
  | statePut scope space name value =>
      exact db.value?_put_other scopeId ns key value scope space name spares
  | _ => rfl

theorem logAfter_perform (db : SqliteDb) (operation : Operation) (afterId : Int)
    (spares : operation.SparesLog scopeId ns key) :
    (FunctionStorageSqlite.perform db operation).1.logAfter scopeId ns key afterId =
      db.logAfter scopeId ns key afterId := by
  cases operation with
  | workerPut scope worker state =>
      simp only [FunctionStorageSqlite.perform, FunctionStorageSqlite.workerPut]
      cases workerStateKey worker <;> rfl
  | executionClear scope => exact db.logAfter_clear_other scopeId ns key afterId scope spares
  | stateAppend scope space name item =>
      exact db.logAfter_append_other scopeId ns key item afterId _ scope space name spares
  | _ => rfl

end

/-! ## The invariant -/

namespace SharedStorage

variable (executionId : Bytes)

/-- The framework's rows are those it left. -/
private structure Agrees (storage : SharedStorage) : Prop where
  workers : storage.db.entries executionId nsWorker = storage.left.workers
  bufferingInit : storage.db.value? executionId nsBufferingInit bufferingInitKey =
    storage.left.bufferingInit
  streamingFinalize : ∀ afterId : Int,
    storage.db.logAfter executionId nsStreamingFinalize streamingFinalizeKey afterId =
      storage.left.streamingFinalize.filter fun row => afterId < row.1

private theorem agrees_start : Agrees executionId start :=
  ⟨rfl, rfl, fun _ => rfl⟩

private theorem nsWorker_ne_bufferingInit : nsWorker ≠ nsBufferingInit := by
  decide +kernel

/-- An operation that leaves the framework's rows alone. -/
private theorem Agrees.spared {storage : SharedStorage} (agrees : storage.Agrees executionId)
    (operation : Operation) (workers : operation.SparesWorkers executionId)
    (bufferingInit : operation.SparesValue executionId nsBufferingInit bufferingInitKey)
    (log : operation.SparesLog executionId nsStreamingFinalize streamingFinalizeKey) :
    Agrees executionId
      { storage with db := (FunctionStorageSqlite.perform storage.db operation).1 } where
  workers := (entries_perform storage.db executionId operation workers).trans agrees.workers
  bufferingInit := (value?_perform _ _ _ storage.db operation bufferingInit).trans
    agrees.bufferingInit
  streamingFinalize := fun afterId =>
    (logAfter_perform _ _ _ storage.db operation afterId log).trans
      (agrees.streamingFinalize afterId)

private theorem agrees_user {storage : SharedStorage} (agrees : storage.Agrees executionId)
    (substreamId : Option Bytes) (call : UserCall) (spares : call.SparesFramework) :
    Agrees executionId (storage.step executionId (.user substreamId call)) := by
  cases call with
  | statePut ns key value =>
      exact agrees.spared executionId _ (fun same => spares.1 same.2)
        (fun same => spares.2 same.2) trivial
  | stateAppend ns key item =>
      exact agrees.spared executionId _ trivial trivial fun same => spares same.2
  | _ => exact agrees.spared executionId _ trivial trivial trivial

private theorem agrees_elsewhere {storage : SharedStorage} (agrees : storage.Agrees executionId)
    (operation : Operation) (elsewhere : operation.scope ≠ executionId) :
    Agrees executionId (storage.step executionId (.elsewhere operation)) := by
  refine agrees.spared executionId operation ?_ ?_ ?_
  · cases operation <;> first | trivial | exact elsewhere | exact fun same => elsewhere same.1
  · cases operation <;> first | trivial | exact elsewhere | exact fun same => elsewhere same.1
  · cases operation <;> first | trivial | exact elsewhere | exact fun same => elsewhere same.1

private theorem agrees_put {storage : SharedStorage} (agrees : storage.Agrees executionId)
    (slot state : Bytes) :
    Agrees executionId
      ⟨storage.db.put executionId nsWorker slot state, storage.left.put slot state⟩ where
  workers := by
    rw [Tables.entries_put, agrees.workers]
    rfl
  bufferingInit := by
    rw [Tables.value?_put_other _ _ _ _ _ _ _ _ fun same => nsWorker_ne_bufferingInit same.2.1]
    exact agrees.bufferingInit
  streamingFinalize := agrees.streamingFinalize

/-- The framework's own calls do to the rows what they do to what it left. -/
private theorem agrees_framework {storage : SharedStorage} (agrees : storage.Agrees executionId)
    (substreamId : Option Bytes) (call : FrameworkCall) :
    Agrees executionId (storage.step executionId (.framework substreamId call)) := by
  cases call with
  | put pid state =>
      cases slot : workerStateKey (BoundStorage.slot ⟨executionId, substreamId⟩ pid) with
      | error fault =>
          simp only [step, FrameworkCall.operation, BoundStorage.put, FrameworkState.after,
            FunctionStorageSqlite.perform, FunctionStorageSqlite.workerPut, slot]
          exact agrees
      | ok key =>
          simp only [step, FrameworkCall.operation, BoundStorage.put, FrameworkState.after,
            FunctionStorageSqlite.perform, FunctionStorageSqlite.workerPut, slot]
          exact agrees_put executionId agrees key state
  | collect =>
      exact
        { workers := storage.db.entries_drain executionId nsWorker
          bufferingInit := (storage.db.value?_drain_other _ _ _ executionId nsWorker fun same =>
            nsWorker_ne_bufferingInit same.2).trans agrees.bufferingInit
          streamingFinalize := agrees.streamingFinalize }
  | putBufferingInit payload =>
      exact
        { workers := (storage.db.entries_put_other executionId nsWorker bufferingInitKey payload
            executionId nsBufferingInit fun same =>
              nsWorker_ne_bufferingInit same.2.symm).trans agrees.workers
          bufferingInit := storage.db.value?_put executionId nsBufferingInit bufferingInitKey payload
          streamingFinalize := agrees.streamingFinalize }
  | appendFinalized batch =>
      exact
        { workers := agrees.workers
          bufferingInit := agrees.bufferingInit
          streamingFinalize := fun afterId => by
            have appended := storage.db.logAfter_append executionId nsStreamingFinalize
              streamingFinalizeKey batch afterId (storage.db.logSequence + 1)
            refine appended.trans ?_
            rw [agrees.streamingFinalize afterId]
            by_cases later : afterId < storage.db.logSequence + 1
            · simp [step, FrameworkState.after, FrameworkCall.operation, BoundStorage.stateAppend,
                FunctionStorageSqlite.perform, FunctionStorageSqlite.stateAppend, later]
            · simp [step, FrameworkState.after, FrameworkCall.operation, BoundStorage.stateAppend,
                FunctionStorageSqlite.perform, FunctionStorageSqlite.stateAppend, later] }
  | executionClear =>
      exact
        { workers := storage.db.entries_clear executionId nsWorker
          bufferingInit := storage.db.value?_clear executionId nsBufferingInit bufferingInitKey
          streamingFinalize := fun afterId =>
            storage.db.logAfter_clear executionId nsStreamingFinalize streamingFinalizeKey afterId }
  | workerScan | getBufferingInit | scanFinalized cursor => exact agrees

private theorem agrees_run {allowed : UserCall → Prop}
    (spares : ∀ call, allowed call → call.SparesFramework) (steps : List StorageStep)
    (within : ∀ step ∈ steps, step.Within executionId allowed) (storage : SharedStorage)
    (agrees : storage.Agrees executionId) : Agrees executionId (storage.run executionId steps) := by
  induction steps generalizing storage with
  | nil => exact agrees
  | cons first rest ih =>
      refine ih (fun step member => within step (List.mem_cons_of_mem _ member)) _ ?_
      have here := within first List.mem_cons_self
      cases first with
      | user substreamId call => exact agrees_user executionId agrees substreamId call (spares call here)
      | framework substreamId call => exact agrees_framework executionId agrees substreamId call
      | elsewhere operation => exact agrees_elsewhere executionId agrees operation here

private theorem Agrees.isolated {storage : SharedStorage} (agrees : storage.Agrees executionId) :
    storage.Isolated executionId where
  collect := ((FunctionStorageSqlite.inKeyOrder_perm _).map _).trans
    (.of_eq (congrArg (List.map Prod.snd) agrees.workers))
  workerScan := ((FunctionStorageSqlite.inKeyOrder_perm _).map _).trans
    (.of_eq (congrArg (List.map _) agrees.workers))
  bufferingInit := agrees.bufferingInit
  streamingFinalize := fun afterId limit => by
    cases limit with
    | none => exact agrees.streamingFinalize afterId
    | some limit =>
        exact congrArg (FunctionStorageSqlite.sqlLimit limit) (agrees.streamingFinalize afterId)
  substreams := fun first second pid state different =>
    storage.db.value?_put_other executionId nsWorker second state executionId nsWorker first
      fun same => different same.2.2

/-- One call that writes a row of the framework shows at once. -/
private theorem not_isolated (call : UserCall) (meets : ¬call.SparesFramework) :
    ¬(start.run executionId [.user none call]).Isolated executionId := by
  intro isolated
  cases call with
  | statePut ns key value =>
      by_cases worker : ns = nsWorker
      · subst worker
        have collected := isolated.collect.length_eq
        simp [run, step, start, UserCall.operation, BoundStorage.statePut, FrameworkState.empty,
          FunctionStorageSqlite.perform, FunctionStorageSqlite.statePut,
          FunctionStorageSqlite.workerCollect, FunctionStorageSqlite.inKeyOrder, Tables.entries_put]
          at collected
      · obtain ⟨rfl, rfl⟩ : ns = nsBufferingInit ∧ key = bufferingInitKey :=
          Classical.byContradiction fun other => meets ⟨worker, other⟩
        have read := isolated.bufferingInit
        simp [run, step, start, UserCall.operation, BoundStorage.statePut, FrameworkState.empty,
          FunctionStorageSqlite.perform, FunctionStorageSqlite.statePut,
          FunctionStorageSqlite.stateGet, Tables.value?_put] at read
  | stateAppend ns key item =>
      obtain ⟨rfl, rfl⟩ : ns = nsStreamingFinalize ∧ key = streamingFinalizeKey :=
        Classical.byContradiction meets
      have scanned := isolated.streamingFinalize 0 none
      simp [run, step, start, UserCall.operation, BoundStorage.stateAppend, FrameworkState.empty,
        FunctionStorageSqlite.perform, FunctionStorageSqlite.stateAppend,
        FunctionStorageSqlite.stateLogScan, Tables.logAfter_append, Tables.empty] at scanned
  | _ => exact meets trivial

/-- Every interleaving of the allowed calls with the framework's own, and with what happens in other
scopes, leaves the framework its state exactly when no allowed call writes a row of it. -/
theorem framework_isolated_iff (allowed : UserCall → Prop) :
    (∀ steps : List StorageStep, (∀ step ∈ steps, step.Within executionId allowed) →
        (start.run executionId steps).Isolated executionId) ↔
      ∀ call, allowed call → call.SparesFramework := by
  constructor
  · intro isolated call isAllowed
    refine Classical.byContradiction fun meets => not_isolated executionId call meets ?_
    exact isolated [.user none call] fun step member => by
      obtain rfl := List.mem_singleton.mp member
      exact isAllowed
  · intro spares steps within
    exact (agrees_run executionId spares steps within start (agrees_start executionId)).isolated

end SharedStorage

/-- A substream's state is put, then the author's function writes under `worker`. -/
def collidingRun : SharedStorage :=
  SharedStorage.start.run [9]
    [.framework (some [1]) (.put .zero [5]), .user (some [1]) (.statePut nsWorker [7] [6])]

theorem worker_namespace_collides :
    (FunctionStorageSqlite.workerCollect collidingRun.db [9]).2 = [[5], [6]] ∧
      ¬collidingRun.Isolated [9] := by
  have collected : (FunctionStorageSqlite.workerCollect collidingRun.db [9]).2 = [[5], [6]] := by
    decide +kernel
  refine ⟨collected, fun isolated => ?_⟩
  have same := isolated.collect.length_eq
  rw [collected] at same
  revert same
  decide +kernel

end VgiWorker.Storage
