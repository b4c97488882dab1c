import VgiWorker.Storage.WorkerStates

/-!
# `BoundStorage`

The storage of one execution, as the framework and the functions of the author
call it, and the namespaces that the framework keeps for itself.
-/

set_option autoImplicit false

namespace VgiWorker.Storage

open Js
open Crypto (int64Bytes)

/-! ## Names of the framework -/

def nsBufferingInit : Bytes :=
  utf8Encode (text "_vgi/buffering_init")

def nsStreamingFinalize : Bytes :=
  utf8Encode (text "_vgi/streaming_finalize")

def packIntKey (value : Int) : Bytes :=
  int64Bytes value

def bufferingInitKey : Bytes :=
  packIntKey (-1)

def streamingFinalizeKey : Bytes :=
  []

/-! ## The class -/

structure BoundStorage where
  executionId : Bytes
  substreamId : Option Bytes
  deriving DecidableEq

namespace BoundStorage

variable (bound : BoundStorage)

/-- The substream's slot, or the process's when the client sent no id. -/
def slot (pid : Number) : WorkerStateKey :=
  match bound.substreamId with
  | some substreamId => .bytes substreamId
  | none => .number pid

def put (pid : Number) (state : Bytes) : Operation :=
  .workerPut bound.executionId (bound.slot pid) state

def collect : Operation :=
  .workerCollect bound.executionId

def workerScan : Operation :=
  .workerScan bound.executionId

def queuePush (items : List Bytes) : Operation :=
  .queuePush bound.executionId items

def queuePop : Operation :=
  .queuePop bound.executionId

def queueClear : Operation :=
  .queueClear bound.executionId

def stateGet (ns key : Bytes) : Operation :=
  .stateGet bound.executionId ns key

def statePut (ns key value : Bytes) : Operation :=
  .statePut bound.executionId ns key value

def stateAppend (ns key item : Bytes) : Operation :=
  .stateAppend bound.executionId ns key item

def stateLogScan (ns key : Bytes) (afterId limit : Option Int) : Operation :=
  .stateLogScan bound.executionId ns key afterId limit

def executionClear : Operation :=
  .executionClear bound.executionId

end BoundStorage

/-! ## Callers -/

/-- What a function of the author does with `params.storage`. -/
inductive UserCall where
  | stateGet (ns key : Bytes)
  | statePut (ns key value : Bytes)
  | stateAppend (ns key item : Bytes)
  | stateLogScan (ns key : Bytes) (afterId limit : Option Int)
  | queuePush (items : List Bytes)
  | queuePop
  | queueClear
  deriving DecidableEq

def UserCall.operation (bound : BoundStorage) : UserCall → Operation
  | .stateGet ns key => bound.stateGet ns key
  | .statePut ns key value => bound.statePut ns key value
  | .stateAppend ns key item => bound.stateAppend ns key item
  | .stateLogScan ns key afterId limit => bound.stateLogScan ns key afterId limit
  | .queuePush items => bound.queuePush items
  | .queuePop => bound.queuePop
  | .queueClear => bound.queueClear

/-- What the framework does with the storage of an execution: the worker states of table-in-out
functions, the init of a buffering function, the batches of a streamed finalize, and the
destructor. -/
inductive FrameworkCall where
  | put (pid : Number) (state : Bytes)
  | collect
  | workerScan
  | putBufferingInit (payload : Bytes)
  | getBufferingInit
  | appendFinalized (batch : Bytes)
  | scanFinalized (cursor : Int)
  | executionClear
  deriving DecidableEq

def FrameworkCall.operation (bound : BoundStorage) : FrameworkCall → Operation
  | .put pid state => bound.put pid state
  | .collect => bound.collect
  | .workerScan => bound.workerScan
  | .putBufferingInit payload => bound.statePut nsBufferingInit bufferingInitKey payload
  | .getBufferingInit => bound.stateGet nsBufferingInit bufferingInitKey
  | .appendFinalized batch => bound.stateAppend nsStreamingFinalize streamingFinalizeKey batch
  | .scanFinalized cursor =>
      bound.stateLogScan nsStreamingFinalize streamingFinalizeKey (some cursor) (some 1)
  | .executionClear => bound.executionClear

def Operation.scope : Operation → Bytes
  | .workerPut scope _ _ | .workerCollect scope | .workerScan scope | .queuePush scope _
  | .queuePop scope | .queueClear scope | .stateGet scope _ _ | .statePut scope _ _ _
  | .stateAppend scope _ _ _ | .stateLogScan scope _ _ _ _ | .executionClear scope => scope

end VgiWorker.Storage
