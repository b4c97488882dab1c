import VgiWorker.Js.Json
import VgiWorker.Storage.Tables

/-!
# `FunctionStorageCfDo`

The client of the durable object. The object itself is a parameter: what it does
with each request of the protocol, for one shard key. Blobs travel in base64.
-/

set_option autoImplicit false

namespace VgiWorker.Storage

open Js

/-! ## Protocol -/

/-- A page of `state_scan` or `state_drain`; a field left out is `none`. -/
structure Page where
  rows : Option (List (Text × Text))
  nextAfter : Option Text
  deriving DecidableEq

/-- A request by endpoint, with the type of what answers it. -/
inductive Request : Type → Type where
  | statePutMany (scopeId ns : Text) (items : List (Text × Text)) (attemptId : Text) : Request Unit
  | stateGetMany (scopeId ns : Text) (keys : List Text) : Request (Option (List (Option Text)))
  | stateScan (scopeId ns : Text) (afterKey : Option Text) : Request Page
  | stateDrain (scopeId ns : Text) (afterKey : Option Text) (attemptId : Text) : Request Page
  | stateAppend (scopeId ns key item attemptId : Text) : Request Int
  | stateLogScan (scopeId ns key : Text) (afterId : Int) (limit : Option Int) :
      Request (Option (List (Int × Text)))
  | executionClear (scopeId attemptId : Text) : Request Int
  | queuePush (executionId : Text) (items : List Text) (attemptId : Text) : Request Int
  | queuePop (executionId attemptId : Text) : Request (Option Text)
  | queueClear (executionId attemptId : Text) : Request Int

namespace Request

def endpoint {Data : Type} : Request Data → Text
  | .statePutMany .. => text "state_put_many"
  | .stateGetMany .. => text "state_get_many"
  | .stateScan .. => text "state_scan"
  | .stateDrain .. => text "state_drain"
  | .stateAppend .. => text "state_append"
  | .stateLogScan .. => text "state_log_scan"
  | .executionClear .. => text "execution_clear"
  | .queuePush .. => text "queue_push"
  | .queuePop .. => text "queue_pop"
  | .queueClear .. => text "queue_clear"

def attemptId? {Data : Type} : Request Data → Option Text
  | .statePutMany _ _ _ attemptId => some attemptId
  | .stateDrain _ _ _ attemptId => some attemptId
  | .stateAppend _ _ _ _ attemptId => some attemptId
  | .executionClear _ attemptId => some attemptId
  | .queuePush _ _ attemptId => some attemptId
  | .queuePop _ attemptId => some attemptId
  | .queueClear _ attemptId => some attemptId
  | .stateGetMany .. | .stateScan .. | .stateLogScan .. => none

end Request

/-- A response with a JSON body; `body` is that body written out again. -/
inductive Reply (Data : Type) where
  | ok (data : Data)
  | refused (status : Nat) (error message : Option Text) (body : Text)

structure DurableObject where
  State : Type
  initial : State
  handle : {Data : Type} → State → Request Data → State × Reply Data

/-! ## Transport -/

/-- What becomes of one `fetch`. -/
inductive Delivery where
  | answered
  /-- `fetch` threw and the request did not arrive. -/
  | requestLost
  /-- The object handled the request, and `fetch` threw. -/
  | answerLost
  deriving DecidableEq

/-- What a call draws from its surroundings: a fresh attempt id, what becomes of each of its
requests, and a bound on its pages. -/
structure Surroundings where
  attemptId : Text
  network : Nat → Delivery × Delivery
  pageBound : Nat

namespace FunctionStorageCfDo

def notRegistered : Text :=
  text "Invocation is not registered. Call queuePush first to register the invocation."

def readReply {Data : Type} (endpoint : Text) : Reply Data → Except StorageError Data
  | .ok data => .ok data
  | .refused status error message body =>
      if status = 404 ∧ error = some (text "unknown_invocation") then
        .error (.unknownInvocation (message.getD notRegistered))
      else if status = 401 then
        .error (.error (text "Authentication failed: " ++ error.getD (text "unauthorized")))
      else
        .error (.error (text "CF DO storage error " ++ Number.decimal status ++ text " on " ++
          endpoint ++ text ": " ++ body))

variable {object : DurableObject}

def attempts {Data : Type} (request : Request Data) :
    List Delivery → object.State → object.State × Except StorageError Data
  | [], state => (state, .error .transport)
  | .answered :: _, state =>
      let (after, reply) := object.handle state request
      (after, readReply request.endpoint reply)
  | .requestLost :: rest, state => attempts request rest state
  | .answerLost :: rest, state => attempts request rest (object.handle state request).1

/-- Two attempts, the second after a failed first. -/
def post {Data : Type} (network : Delivery × Delivery) (request : Request Data)
    (state : object.State) : object.State × Except StorageError Data :=
  attempts request [network.1, network.2] state

def b64ToBytes (string : Text) : Except StorageError Bytes :=
  match b64ToBytes? string with
  | some bytes => .ok bytes
  | none => .error (.error (text "The string contains invalid characters."))

/-! ## Operations -/

/-- One request, and what is made of its answer. -/
def single {Data : Type} (around : Surroundings) (request : Request Data)
    (read : Data → Except StorageError Answer) (state : object.State) : object.State × Outcome :=
  let (after, data) := post (around.network 0) request state
  (after, data.bind read)

def readRow (row : Text × Text) : Except StorageError (Bytes × Bytes) := do
  let key ← b64ToBytes row.1
  let value ← b64ToBytes row.2
  .ok (key, value)

/-- The loop of `_statePaged` at its `page`-th request; `rows` are those read before it. An
empty `next_after` is falsy. -/
def pagesFrom (around : Surroundings) (request : Option Text → Request Page) :
    Nat → Nat → Option Text → List (Bytes × Bytes) → object.State →
      object.State × Except StorageError (List (Bytes × Bytes))
  | 0, _, _, _, state => (state, .error .unfinished)
  | bound + 1, page, afterKey, rows, state =>
      match post (around.network page) (request afterKey) state with
      | (after, .error fault) => (after, .error fault)
      | (after, .ok data) =>
          match (data.rows.getD []).mapM readRow with
          | .error fault => (after, .error fault)
          | .ok read =>
              match data.nextAfter with
              | none | some [] => (after, .ok (rows ++ read))
              | some next => pagesFrom around request bound (page + 1) (some next) (rows ++ read) after

def statePaged (around : Surroundings) (request : Option Text → Request Page)
    (state : object.State) : object.State × Except StorageError (List (Bytes × Bytes)) :=
  pagesFrom around request around.pageBound 0 none [] state

def statePutMany (around : Surroundings) (scopeId ns : Bytes) (items : List (Bytes × Bytes)) :
    object.State → object.State × Outcome :=
  single around
    (.statePutMany (bytesToB64 scopeId) (bytesToB64 ns)
      (items.map fun item => (bytesToB64 item.1, bytesToB64 item.2)) around.attemptId)
    fun _ => .ok .done

def workerPut (around : Surroundings) (executionId : Bytes) (worker : WorkerStateKey)
    (value : Bytes) (state : object.State) : object.State × Outcome :=
  match workerStateKey worker with
  | .error fault => (state, .error fault)
  | .ok key => statePutMany around executionId nsWorker [(key, value)] state

def workerCollect (around : Surroundings) (executionId : Bytes) (state : object.State) :
    object.State × Outcome :=
  let (after, rows) := statePaged around
    (fun afterKey => .stateDrain (bytesToB64 executionId) (bytesToB64 nsWorker) afterKey
      around.attemptId) state
  (after, rows.map fun rows => .states (rows.map (·.2)))

def workerScan (around : Surroundings) (executionId : Bytes) (state : object.State) :
    object.State × Outcome :=
  let (after, rows) := statePaged around
    (fun afterKey => .stateScan (bytesToB64 executionId) (bytesToB64 nsWorker) afterKey) state
  (after, rows.map fun rows => .workers (rows.map fun row => (int64FromKey row.1, row.2)))

def queuePush (around : Surroundings) (executionId : Bytes) (items : List Bytes) :
    object.State → object.State × Outcome :=
  single around
    (.queuePush (bytesToB64 executionId) (items.map bytesToB64) around.attemptId)
    fun count => .ok (.count count)

/-- An item is decoded when its base64 is truthy, which an empty item's is not. -/
def queuePop (around : Surroundings) (executionId : Bytes) :
    object.State → object.State × Outcome :=
  single around (.queuePop (bytesToB64 executionId) around.attemptId) fun item =>
    match item with
    | none | some [] => .ok (.value none)
    | some item => (b64ToBytes item).map fun bytes => .value (some bytes)

def queueClear (around : Surroundings) (executionId : Bytes) :
    object.State → object.State × Outcome :=
  single around (.queueClear (bytesToB64 executionId) around.attemptId)
    fun cleared => .ok (.count cleared)

/-- The row is an object here, so an empty value is not lost. -/
def stateGet (around : Surroundings) (scopeId ns key : Bytes) :
    object.State → object.State × Outcome :=
  single around
    (.stateGetMany (bytesToB64 scopeId) (bytesToB64 ns) [bytesToB64 key]) fun rows =>
    match (rows.getD []).head?.join with
    | none => .ok (.value none)
    | some value => (b64ToBytes value).map fun bytes => .value (some bytes)

def statePut (around : Surroundings) (scopeId ns key value : Bytes) :
    object.State → object.State × Outcome :=
  statePutMany around scopeId ns [(key, value)]

def stateAppend (around : Surroundings) (scopeId ns key item : Bytes) :
    object.State → object.State × Outcome :=
  single around
    (.stateAppend (bytesToB64 scopeId) (bytesToB64 ns) (bytesToB64 key) (bytesToB64 item)
      around.attemptId)
    fun ordinal => .ok (.logId ordinal)

/-- Only a positive limit is sent. -/
def sentLimit (limit : Option Int) : Option Int :=
  limit.filter fun limit => 0 < limit

def readLogRow (row : Int × Text) : Except StorageError (Int × Bytes) :=
  (b64ToBytes row.2).map fun value => (row.1, value)

def stateLogScan (around : Surroundings) (scopeId ns key : Bytes) (afterId limit : Option Int) :
    object.State → object.State × Outcome :=
  single around
    (.stateLogScan (bytesToB64 scopeId) (bytesToB64 ns) (bytesToB64 key) (afterId.getD (-1))
      (sentLimit limit))
    fun rows => ((rows.getD []).mapM readLogRow).map .logRows

def executionClear (around : Surroundings) (scopeId : Bytes) :
    object.State → object.State × Outcome :=
  single around (.executionClear (bytesToB64 scopeId) around.attemptId)
    fun deleted => .ok (.count deleted)

def perform (around : Surroundings) : Operation → object.State → object.State × Outcome
  | .workerPut executionId worker value => workerPut around executionId worker value
  | .workerCollect executionId => workerCollect around executionId
  | .workerScan executionId => workerScan around executionId
  | .queuePush executionId items => queuePush around executionId items
  | .queuePop executionId => queuePop around executionId
  | .queueClear executionId => queueClear around executionId
  | .stateGet scopeId ns key => stateGet around scopeId ns key
  | .statePut scopeId ns key value => statePut around scopeId ns key value
  | .stateAppend scopeId ns key item => stateAppend around scopeId ns key item
  | .stateLogScan scopeId ns key afterId limit =>
      stateLogScan around scopeId ns key afterId limit
  | .executionClear scopeId => executionClear around scopeId

end FunctionStorageCfDo

end VgiWorker.Storage
