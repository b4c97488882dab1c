import VgiWorker.Aggregate.StateCodec
import VgiWorker.Data.SharedCells

/-!
# Aggregate RPCs

The unary calls of one execution, as any worker process that shares the state
files serves them: a cache entry in front of a file for each group and one for
the bind context.
-/

set_option autoImplicit false

namespace VgiWorker.Aggregate

open VgiWorker.Js

abbrev Gid := Int

/-- A map from group ids to states. -/
abbrev StateMap := Gid → Option StateValue

/-- The hooks of an aggregate, where a text is what a hook throws. A hook that gets the bind
parameters gets them as they are; `update` and `finalize` get their `args`. -/
structure AggregateConfig (Columns OutputSchema Result : Type) where
  name : Text
  initialState : (params : StateValue) → Except Text StateValue
  /-- The map as the hook leaves it, also when it throws; `initial` is what `ensureState` puts
  under a group id without a state. -/
  update : (initial : Except Text StateValue) → (args : Option StateValue) → (states : StateMap) →
    (groupIds : List Gid) → Columns → StateMap × Option Text
  combine : (source target params : StateValue) → Except Text StateValue
  finalize : (groupIds : List Gid) → (states : StateMap) → OutputSchema →
    (args : Option StateValue) → Except Text Result

inductive AggregateRpc (Columns OutputSchema : Type) where
  | update (groupIds : List Gid) (columns : Columns)
  | combine (pairs : List (Gid × Gid))
  | finalize (groupIds : List Gid) (outputSchema : OutputSchema)
  | destructor (groupIds : List Gid)

inductive AggregateFault where
  | message (message : Text)
  | json (fault : JsonFault)
  deriving DecidableEq

structure ExecEntry where
  states : StateMap
  bindParams : StateValue

/-- What one process keeps of the execution, with what the call it is at has thrown. -/
structure ProcessMemory where
  entry : Option ExecEntry
  fault : Option AggregateFault

/-- `params.args`. -/
def argsOf : StateValue → Option StateValue
  | .object members => lookupEntry members (text "args")
  | .classInstance _ (.object members) => lookupEntry members (text "args")
  | _ => none

/-! ## The files -/

/-- `context.json`. -/
def writeContext (bindParams : StateValue) : Json :=
  writeJson (.object [(text "bindParams", bindParams)])

/-- The bind parameters of the context file, when there is one. -/
def readContext (file : Option Json) : Except JsonFault (Option StateValue) := do
  let context ← tryReadJson file
  match context with
  | some (.object members) => .ok (lookupEntry members (text "bindParams"))
  | _ => .ok none

/-- The group ids of a list, once each. -/
def uniqueGids (groupIds : List Gid) : List Gid :=
  groupIds.foldl (fun seen gid => if gid ∈ seen then seen else seen ++ [gid]) []

def referencedGids (pairs : List (Gid × Gid)) : List Gid :=
  uniqueGids (pairs.flatMap fun pair => [pair.1, pair.2])

section

variable {Columns OutputSchema Result : Type}

namespace AggregateRpc

/-- The group ids a call is about. -/
def groupIds : AggregateRpc Columns OutputSchema → List Gid
  | .update groupIds _ => uniqueGids groupIds
  | .combine pairs => referencedGids pairs
  | .finalize groupIds _ => uniqueGids groupIds
  | .destructor groupIds => uniqueGids groupIds

/-- The group ids whose files `getExecutionState` reads. -/
def requestedGids : AggregateRpc Columns OutputSchema → List Gid
  | .destructor _ => []
  | rpc => rpc.groupIds

/-- An empty batch is answered before the execution is looked up. -/
def isEmptyBatch : AggregateRpc Columns OutputSchema → Bool
  | .update groupIds _ => groupIds.isEmpty
  | .combine pairs => pairs.isEmpty
  | _ => false

end AggregateRpc

/-! ## `getExecutionState` -/

/-- The entry, from the context file when this process has none. -/
def enterExecution (context : Option Json) (memory : ProcessMemory)
    (rpc : AggregateRpc Columns OutputSchema) : ProcessMemory :=
  if rpc.isEmptyBatch then { memory with fault := none }
  else
    match memory.entry with
    | some entry => ⟨some entry, none⟩
    | none =>
        match readContext context with
        | .ok (some bindParams) => ⟨some ⟨fun _ => none, bindParams⟩, none⟩
        | .ok none => ⟨none, none⟩
        | .error fault => ⟨none, some (.json fault)⟩

/-- A group's state is read from its file, whatever the cache holds. -/
def loadGroup (memory : ProcessMemory) (gid : Gid) (file : Option Json) : ProcessMemory :=
  match memory.entry with
  | none => memory
  | some entry =>
      match tryReadJson file with
      | .ok state =>
          { memory with entry := some { entry with states := Function.update entry.states gid state } }
      | .error fault => { memory with fault := memory.fault.or (some (.json fault)) }

/-- `persistGroupStates` at one group: the file's new contents, none when it is removed. -/
def persistedGroup (memory : ProcessMemory) (gid : Gid) : Option Json :=
  match memory.entry with
  | none => none
  | some entry => (entry.states gid).map writeJson

/-! ## The handlers -/

variable (config : AggregateConfig Columns OutputSchema Result)

def unknownExecution (rpc : AggregateRpc Columns OutputSchema) : Text :=
  match rpc with
  | .update _ _ =>
      text "aggregate_update: unknown execution_id for '" ++ config.name ++
        text "' (bind missing or state dropped)"
  | .combine _ =>
      text "aggregate_combine: unknown execution_id for '" ++ config.name ++
        text "' (context missing on disk — bind may have failed or been cleaned up)"
  | _ => text "aggregate_finalize: unknown execution_id for '" ++ config.name ++ text "'"

/-- One pair of `aggregate_combine`: the states of source and target, a missing one being fresh. -/
def mergeStates (params : StateValue) (source target : Option StateValue) :
    Except Text StateValue := do
  let source ← match source with
    | some state => .ok state
    | none => config.initialState params
  let target ← match target with
    | some state => .ok state
    | none => config.initialState params
  config.combine source target params

/-- The map after the pairs, with the touched targets. -/
def combinePairs (params : StateValue) : StateMap → List Gid → List (Gid × Gid) →
    StateMap × Except Text (List Gid)
  | states, touched, [] => (states, .ok touched)
  | states, touched, (source, target) :: rest =>
      if (states source).isNone && (states target).isNone then
        combinePairs params states touched rest
      else
        match mergeStates config params (states source) (states target) with
        | .ok merged =>
            combinePairs params (Function.update states target (some merged))
              (if target ∈ touched then touched else touched ++ [target]) rest
        | .error message => (states, .error message)

/-- The states that `finalize` is handed; null for a group without one. -/
def finalizeStates (states : StateMap) (groupIds : List Gid) : StateMap :=
  fun gid => if gid ∈ groupIds then states gid else none

/-- A call on its entry: the entry's new states, the answer and the groups to persist. -/
def runRpc (entry : ExecEntry) : AggregateRpc Columns OutputSchema →
    StateMap × Except AggregateFault (Option Result) × List Gid
  | .update groupIds columns =>
      match config.update (config.initialState entry.bindParams) (argsOf entry.bindParams)
          entry.states groupIds columns with
      | (states, none) => (states, .ok none, uniqueGids groupIds)
      | (states, some message) => (states, .error (.message message), [])
  | .combine pairs =>
      match combinePairs config entry.bindParams entry.states [] pairs with
      | (states, .ok touched) => (states, .ok none, touched)
      | (states, .error message) => (states, .error (.message message), [])
  | .finalize groupIds outputSchema =>
      match config.finalize groupIds (finalizeStates entry.states groupIds) outputSchema
          (argsOf entry.bindParams) with
      | .ok result => (entry.states, .ok (some result), [])
      | .error message => (entry.states, .error (.message message), [])
  | .destructor groupIds =>
      ((fun gid => if gid ∈ groupIds then none else entry.states gid), .ok none,
        uniqueGids groupIds)

def computeRpc (memory : ProcessMemory) (rpc : AggregateRpc Columns OutputSchema) :
    ProcessMemory × Except AggregateFault (Option Result) × List Gid :=
  if rpc.isEmptyBatch then (memory, .ok none, [])
  else
    match memory.fault, memory.entry, rpc with
    | some fault, _, _ => (memory, .error fault, [])
    | none, some entry, rpc =>
        let (states, answer, persisted) := runRpc config entry rpc
        ({ memory with entry := some { entry with states := states } }, answer, persisted)
    | none, none, .destructor _ => (memory, .ok none, [])
    | none, none, rpc => (memory, .error (.message (unknownExecution config rpc)), [])

/-- A process that serves the execution whose bind context is in `context`. -/
def aggregateProcess (context : Option Json) :
    SharedCells.Machine Gid (Option Json) (AggregateRpc Columns OutputSchema) ProcessMemory
      (Except AggregateFault (Option Result)) where
  footprint := AggregateRpc.groupIds
  reads := fun rpc => if rpc.isEmptyBatch then [] else rpc.requestedGids
  enter := enterExecution context
  load := loadGroup
  compute := computeRpc config
  store := persistedGroup

/-- The memory of the process that ran `aggregate_bind`, and of the others. -/
def boundMemory (bindParams : StateValue) : ProcessMemory :=
  ⟨some ⟨fun _ => none, bindParams⟩, none⟩

def freshMemory : ProcessMemory :=
  ⟨none, none⟩

end

end VgiWorker.Aggregate
