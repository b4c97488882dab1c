import VgiWorker.Aggregate.RpcProperties

/-!
# Secrets after the bind

What the hooks of an aggregate are handed in the calls that follow its bind, and
what the execution keeps on disk, for two binds that differ in their secrets.
-/

set_option autoImplicit false

namespace VgiWorker.Aggregate

open VgiWorker.Js

/-- The parameters of one hook call. Of `update`, `ensureState` is what a call of that closure
hands to `initialState`. -/
inductive HookParams (Columns OutputSchema : Type) where
  | initialState (params : StateValue)
  | update (states : StateMap) (groupIds : List Gid) (columns : Columns)
      (args : Option StateValue) (ensureState : StateValue)
  | combine (source target params : StateValue)
  | finalize (groupIds : List Gid) (states : StateMap) (outputSchema : OutputSchema)
      (args : Option StateValue)

section

variable {Columns OutputSchema Result : Type} (config : AggregateConfig Columns OutputSchema Result)

/-- The states a pair is merged from; a missing one is asked for. -/
def freshParams (params : StateValue) (state : Option StateValue) :
    List (HookParams Columns OutputSchema) :=
  match state with
  | some _ => []
  | none => [.initialState params]

/-- The calls of one pair, up to a hook that throws. -/
def mergeCalls (params : StateValue) (source target : Option StateValue) :
    List (HookParams Columns OutputSchema) :=
  let asked : Option StateValue → Except Text StateValue := fun state =>
    match state with
    | some state => .ok state
    | none => config.initialState params
  match asked source with
  | .error _ => freshParams params source
  | .ok sourceState =>
      match asked target with
      | .error _ => freshParams params source ++ freshParams params target
      | .ok targetState =>
          freshParams params source ++ freshParams params target ++
            [.combine sourceState targetState params]

def combineCalls (params : StateValue) : StateMap → List (Gid × Gid) →
    List (HookParams Columns OutputSchema)
  | _, [] => []
  | states, (source, target) :: rest =>
      if (states source).isNone && (states target).isNone then combineCalls params states rest
      else
        mergeCalls config params (states source) (states target) ++
          match mergeStates config params (states source) (states target) with
          | .ok merged => combineCalls params (Function.update states target (some merged)) rest
          | .error _ => []

/-- The hook calls of a handler on its entry. -/
def entryCalls (entry : ExecEntry) :
    AggregateRpc Columns OutputSchema → List (HookParams Columns OutputSchema)
  | .update groupIds columns =>
      [.update entry.states groupIds columns (argsOf entry.bindParams) entry.bindParams]
  | .combine pairs => combineCalls config entry.bindParams entry.states pairs
  | .finalize groupIds outputSchema =>
      [.finalize groupIds (finalizeStates entry.states groupIds) outputSchema
        (argsOf entry.bindParams)]
  | .destructor _ => []

/-- The hook calls of a request that a process has read its groups for. -/
def hookCalls (memory : ProcessMemory) (rpc : AggregateRpc Columns OutputSchema) :
    List (HookParams Columns OutputSchema) :=
  if rpc.isEmptyBatch then []
  else
    match memory.fault, memory.entry with
    | none, some entry => entryCalls config entry rpc
    | _, _ => []

/-- An execution as it stands: the memory of each process and the group files. -/
structure Execution (Process : Type) where
  memories : Process → ProcessMemory
  files : Gid → Option Json

section

variable {Process : Type} [DecidableEq Process]

/-- The execution right after its bind. -/
def boundExecution (binder : Process) (params : StateValue) : Execution Process :=
  ⟨memoriesAfterBind binder params, noFiles⟩

/-- One call, served by one process from start to end. -/
def serveCall (context : Option Json) (execution : Execution Process) (process : Process)
    (rpc : AggregateRpc Columns OutputSchema) :
    Execution Process × List (HookParams Columns OutputSchema) :=
  let machine := aggregateProcess config context
  let memory := execution.memories process
  let loaded := machine.loadAll execution.files (machine.enter memory rpc) (machine.reads rpc)
  let (memory, files, _) := machine.serve memory execution.files rpc
  (⟨Function.update execution.memories process memory, files⟩, hookCalls config loaded rpc)

/-- The execution after a sequence of calls, and the hook calls of each. -/
def serveCalls (context : Option Json) (execution : Execution Process) :
    List (Process × AggregateRpc Columns OutputSchema) →
      Execution Process × List (List (HookParams Columns OutputSchema))
  | [] => (execution, [])
  | (process, rpc) :: rest =>
      let (execution, calls) := serveCall config context execution process rpc
      let (last, later) := serveCalls context execution rest
      (last, calls :: later)

end

/-! ## Non-interference -/

/-- A bind with other secrets. -/
def BindParams.withSecrets (params : BindParams) (secrets : List (Text × StateValue)) : BindParams :=
  { params with secrets := secrets }

/-- What a later call and the disk show of a bind. -/
def observed {Process : Type} [DecidableEq Process] (params : BindParams) (binder : Process)
    (calls : List (Process × AggregateRpc Columns OutputSchema)) :
    Json × (Gid → Option Json) × List (List (HookParams Columns OutputSchema)) :=
  let context := writeContext params.value
  let (execution, hooks) :=
    serveCalls config (some context) (boundExecution binder params.value) calls
  (context, execution.files, hooks)

/-- Neither the parameters of a hook in a later call nor the persisted bytes tell the two binds
apart. -/
def SecretsStayAtBind (params : BindParams) (secrets secrets' : List (Text × StateValue)) : Prop :=
  ∀ (Process : Type) [DecidableEq Process] (binder : Process)
    (calls : List (Process × AggregateRpc Columns OutputSchema)),
    observed config (params.withSecrets secrets) binder calls =
      observed config (params.withSecrets secrets') binder calls

theorem value_withSecrets (params : BindParams) (secrets secrets' : List (Text × StateValue))
    (same : (params.withSecrets secrets).value = (params.withSecrets secrets').value) :
    secrets = secrets' := by
  simp only [BindParams.value, BindParams.withSecrets, StateValue.object.injEq, List.cons.injEq,
    Prod.mk.injEq, true_and, and_true] at same
  exact same

/-- `update` and `finalize` are handed the constant arguments only. -/
@[simp] theorem argsOf_value (params : BindParams) :
    argsOf params.value = some (.object params.args) := rfl

/-- The context file keeps the secrets of the bind. -/
theorem context_secrets_iff (params : BindParams) (secrets secrets' : List (Text × StateValue)) :
    writeContext (params.withSecrets secrets).value =
        writeContext (params.withSecrets secrets').value ↔
      stringifyMembers secrets = stringifyMembers secrets' := by
  simp [writeContext, writeJson, BindParams.value, BindParams.withSecrets, stringify,
    stringifyMembers]

/-- The first `update` in the process of the bind gets them through `ensureState`. -/
private theorem calls_of_first_update (params : BindParams) (columns : Columns) :
    (observed config params () [((), .update [0] columns)]).2.2 =
      [[.update (fun _ => none) [0] columns (some (.object params.args)) params.value]] := by
  have loaded : (aggregateProcess config (some (writeContext params.value))).loadAll noFiles
      ((aggregateProcess config (some (writeContext params.value))).enter
        (boundMemory params.value) (.update [0] columns))
      ((aggregateProcess config (some (writeContext params.value))).reads (.update [0] columns)) =
      ⟨some ⟨Function.update (fun _ => none) 0 none, params.value⟩, none⟩ := rfl
  have nothing : Function.update (fun _ : Gid => (none : Option StateValue)) 0 none =
      fun _ => none := Function.update_eq_self 0 (fun _ : Gid => (none : Option StateValue))
  rw [nothing] at loaded
  have calls : (observed config params () [((), .update [0] columns)]).2.2 =
      [hookCalls config ((aggregateProcess config (some (writeContext params.value))).loadAll noFiles
        ((aggregateProcess config (some (writeContext params.value))).enter
          (boundMemory params.value) (.update [0] columns))
        ((aggregateProcess config (some (writeContext params.value))).reads
          (.update [0] columns))) (.update [0] columns)] := rfl
  rw [calls, loaded]
  rfl

/-- Whatever the aggregate, two binds that differ in their secrets can be told apart afterwards;
only equal secrets cannot. -/
theorem secrets_stay_at_bind_iff [Inhabited Columns] (params : BindParams)
    (secrets secrets' : List (Text × StateValue)) :
    SecretsStayAtBind config params secrets secrets' ↔ secrets = secrets' := by
  constructor
  · intro stay
    have same := congrArg (fun seen => seen.2.2) (stay Unit () [((), .update [0] default)])
    rw [calls_of_first_update, calls_of_first_update] at same
    injection same with first _
    injection first with call _
    injection call with _ _ _ _ values
    exact value_withSecrets params secrets secrets' values
  · rintro rfl Process _ binder calls
    rfl

end

/-! ## A secret in the bind of an aggregate -/

/-- An aggregate that notes the groups it has seen. -/
def noteAggregate : AggregateConfig Unit Unit Unit where
  name := text "note"
  initialState := fun _ => .ok (.bool true)
  update := fun initial _ states groupIds _ =>
    (fun gid => if gid ∈ groupIds then initial.toOption else states gid, none)
  combine := fun _ target _ => .ok target
  finalize := fun _ _ _ _ => .ok ()

/-- The secret `token` of a bind without arguments. -/
def tokenSecret (value : Text) : List (Text × StateValue) :=
  [(text "api", .object [(text "token", .string value)])]

def plainBind : BindParams :=
  ⟨[], ⟨[], [], .null⟩, .null, [], .null⟩

/-- Group 0 gets a state, and is merged into group 1. -/
def noteCalls : List (Unit × AggregateRpc Unit Unit) :=
  [((), .update [0] ()), ((), .combine [(0, 1)])]

private theorem noteCalls_hooks (params : BindParams) :
    (observed noteAggregate params () noteCalls).2.2[1]? =
      some [.initialState params.value, .combine (.bool true) (.bool true) params.value] := rfl

/-- The context files differ, and so do the parameters of `initialState` and `combine`. -/
theorem secrets_reach_later_calls :
    ¬SecretsStayAtBind noteAggregate plainBind (tokenSecret (text "a")) (tokenSecret (text "b")) ∧
      writeContext (plainBind.withSecrets (tokenSecret (text "a"))).value ≠
        writeContext (plainBind.withSecrets (tokenSecret (text "b"))).value ∧
      (observed noteAggregate (plainBind.withSecrets (tokenSecret (text "a"))) () noteCalls).2.2[1]? ≠
        (observed noteAggregate (plainBind.withSecrets (tokenSecret (text "b"))) ()
          noteCalls).2.2[1]? := by
  have different : text "a" ≠ text "b" := by decide
  have secretsDiffer : tokenSecret (text "a") ≠ tokenSecret (text "b") := fun same => by
    simp only [tokenSecret, List.cons.injEq, Prod.mk.injEq, StateValue.object.injEq,
      StateValue.string.injEq, true_and, and_true] at same
    exact different same
  have callsDiffer : (observed noteAggregate (plainBind.withSecrets (tokenSecret (text "a"))) ()
      noteCalls).2.2[1]? ≠
        (observed noteAggregate (plainBind.withSecrets (tokenSecret (text "b"))) ()
          noteCalls).2.2[1]? := fun same => by
    rw [noteCalls_hooks, noteCalls_hooks] at same
    injection same with calls
    injection calls with first _
    injection first with values
    exact secretsDiffer (value_withSecrets plainBind _ _ values)
  refine ⟨fun stay => ?_, fun same => ?_, callsDiffer⟩
  · exact callsDiffer (congrArg (fun seen => seen.2.2[1]?) (stay Unit () noteCalls))
  · have members := (context_secrets_iff plainBind _ _).mp same
    simp only [tokenSecret, stringifyMembers, stringify, List.cons.injEq, Prod.mk.injEq,
      Json.object.injEq, Json.string.injEq, true_and, and_true] at members
    exact different members

end VgiWorker.Aggregate
