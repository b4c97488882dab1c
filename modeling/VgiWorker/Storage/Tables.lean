import Mathlib.Data.List.Forall2
import Mathlib.Data.List.Permutation
import Mathlib.Data.List.Sort
import VgiWorker.Crypto.AttachTicket

/-!
# The tables of the unified schema

`function_state`, `function_state_log` and `work_queue`, with the statements that
the backends run on them, and the operations of `FunctionStorage` as data. `Blob` is how
a backend stores a byte string.
-/

set_option autoImplicit false

namespace VgiWorker.Storage

structure StateRow (Blob : Type) where
  scopeId : Blob
  ns : Blob
  key : Blob
  value : Blob
  deriving DecidableEq

structure LogRow (Blob : Type) where
  id : Int
  scopeId : Blob
  ns : Blob
  key : Blob
  value : Blob
  deriving DecidableEq

structure QueueRow (Blob : Type) where
  executionId : Blob
  workItem : Blob
  deriving DecidableEq

/-- The log and the queue are in id order, and `logSequence` is the last id given to a log
row. No statement returns a queue row's id, so these are left out. -/
structure Tables (Blob : Type) where
  functionState : List (StateRow Blob)
  functionStateLog : List (LogRow Blob)
  logSequence : Int
  workQueue : List (QueueRow Blob)
  deriving DecidableEq

variable {Blob : Type} [DecidableEq Blob]

/-- The row with this primary key. -/
abbrev StateRow.At (row : StateRow Blob) (scopeId ns key : Blob) : Prop :=
  row.scopeId = scopeId ∧ row.ns = ns ∧ row.key = key

abbrev StateRow.InNamespace (row : StateRow Blob) (scopeId ns : Blob) : Prop :=
  row.scopeId = scopeId ∧ row.ns = ns

abbrev LogRow.After (row : LogRow Blob) (scopeId ns key : Blob) (afterId : Int) : Prop :=
  row.scopeId = scopeId ∧ row.ns = ns ∧ row.key = key ∧ afterId < row.id

namespace Tables

def empty : Tables Blob :=
  { functionState := [], functionStateLog := [], logSequence := 0, workQueue := [] }

variable (tables : Tables Blob)

/-! ## `function_state` -/

/-- `INSERT OR REPLACE`. -/
def put (scopeId ns key value : Blob) : Tables Blob :=
  { tables with
    functionState := tables.functionState.filter (fun row => ¬ row.At scopeId ns key) ++
      [{ scopeId, ns, key, value }] }

def value? (scopeId ns key : Blob) : Option Blob :=
  (tables.functionState.find? fun row => row.At scopeId ns key).map (·.value)

/-- The keys and values of a namespace. -/
def entries (scopeId ns : Blob) : List (Blob × Blob) :=
  (tables.functionState.filter fun row => row.InNamespace scopeId ns).map
    fun row => (row.key, row.value)

def drain (scopeId ns : Blob) : Tables Blob :=
  { tables with
    functionState := tables.functionState.filter fun row => ¬ row.InNamespace scopeId ns }

/-! ## `function_state_log` -/

def append (id : Int) (scopeId ns key value : Blob) : Tables Blob :=
  { tables with
    functionStateLog := tables.functionStateLog ++ [{ id, scopeId, ns, key, value }]
    logSequence := id }

def logAfter (scopeId ns key : Blob) (afterId : Int) : List (Int × Blob) :=
  (tables.functionStateLog.filter fun row => row.After scopeId ns key afterId).map
    fun row => (row.id, row.value)

def clear (scopeId : Blob) : Tables Blob :=
  { tables with
    functionState := tables.functionState.filter fun row => row.scopeId ≠ scopeId
    functionStateLog := tables.functionStateLog.filter fun row => row.scopeId ≠ scopeId }

/-- The rows that `clear` deletes. -/
def clearCount (scopeId : Blob) : Nat :=
  (tables.functionState.filter fun row => row.scopeId = scopeId).length +
    (tables.functionStateLog.filter fun row => row.scopeId = scopeId).length

/-! ## `work_queue` -/

def push (executionId : Blob) (items : List Blob) : Tables Blob :=
  { tables with
    workQueue := tables.workQueue ++ items.map fun workItem => { executionId, workItem } }

def front? (executionId : Blob) : Option Blob :=
  (tables.workQueue.find? fun row => row.executionId = executionId).map (·.workItem)

/-- The front row of the execution, deleted. -/
def pop (executionId : Blob) : Tables Blob :=
  { tables with workQueue := tables.workQueue.eraseP fun row => row.executionId = executionId }

def queueLength (executionId : Blob) : Nat :=
  (tables.workQueue.filter fun row => row.executionId = executionId).length

def clearQueue (executionId : Blob) : Tables Blob :=
  { tables with workQueue := tables.workQueue.filter fun row => row.executionId ≠ executionId }

end Tables

/-- Equal tables, but for the order in which `function_state` lists its rows. -/
structure Tables.SameRows (left right : Tables Blob) : Prop where
  functionState : left.functionState.Perm right.functionState
  functionStateLog : left.functionStateLog = right.functionStateLog
  logSequence : left.logSequence = right.logSequence
  workQueue : left.workQueue = right.workQueue

/-! ## The storage interface -/

open Js
open Crypto (int64Bytes int64Value)

/-- Which slot of an execution's worker state a row occupies. -/
inductive WorkerStateKey where
  | number (worker : Number)
  | bytes (worker : Bytes)
  deriving DecidableEq

inductive StorageError where
  | rangeError (message : Text)
  | unknownInvocation (message : Text)
  | error (message : Text)
  /-- What `fetch` threw. -/
  | transport
  /-- The pages read so far did not end; no run of the code reports this. -/
  | unfinished
  deriving DecidableEq

def nsWorker : Bytes :=
  utf8Encode (text "worker")

/-- An int64 worker id as eight big-endian bytes; `BigInt` throws on a fraction. -/
def int64Key (worker : Number) : Except StorageError Bytes :=
  match worker.toInt? with
  | some value => .ok (int64Bytes value).reverse
  | none =>
      .error (.rangeError (text "The number " ++ worker.toText ++
        text " cannot be converted to a BigInt because it is not an integer"))

def workerStateKey : WorkerStateKey → Except StorageError Bytes
  | .number worker => int64Key worker
  | .bytes worker => .ok worker

def int64FromKey (key : Bytes) : Number :=
  if key.length ≠ 8 then .zero else Number.ofInt (int64Value key.reverse)

/-- The methods of `FunctionStorage` with their arguments; `none` is an argument left out
or null. -/
inductive Operation where
  | workerPut (executionId : Bytes) (worker : WorkerStateKey) (state : Bytes)
  | workerCollect (executionId : Bytes)
  | workerScan (executionId : Bytes)
  | queuePush (executionId : Bytes) (items : List Bytes)
  | queuePop (executionId : Bytes)
  | queueClear (executionId : Bytes)
  | stateGet (scopeId ns key : Bytes)
  | statePut (scopeId ns key value : Bytes)
  | stateAppend (scopeId ns key item : Bytes)
  | stateLogScan (scopeId ns key : Bytes) (afterId limit : Option Int)
  | executionClear (scopeId : Bytes)
  deriving DecidableEq

inductive Answer where
  | done
  | states (values : List Bytes)
  | workers (rows : List (Number × Bytes))
  | count (rows : Int)
  | value (bytes : Option Bytes)
  | logId (id : Int)
  | logRows (rows : List (Int × Bytes))
  deriving DecidableEq

abbrev Outcome :=
  Except StorageError Answer

/-! ## `FunctionStorageSqlite` -/

abbrev SqliteDb :=
  Tables Bytes

namespace FunctionStorageSqlite

variable (db : SqliteDb)

def stateGet (scopeId ns key : Bytes) : Option Bytes :=
  db.value? scopeId ns key

def statePut (scopeId ns key value : Bytes) : SqliteDb :=
  db.put scopeId ns key value

/-- The new row's id is the next of the `AUTOINCREMENT` sequence. -/
def stateAppend (scopeId ns key item : Bytes) : SqliteDb × Int :=
  (db.append (db.logSequence + 1) scopeId ns key item, db.logSequence + 1)

/-- `LIMIT ?`: a negative limit is none. -/
def sqlLimit {Row : Type} (limit : Int) (rows : List Row) : List Row :=
  if limit < 0 then rows else rows.take limit.toNat

def stateLogScan (scopeId ns key : Bytes) (afterId limit : Option Int) : List (Int × Bytes) :=
  let rows := db.logAfter scopeId ns key (afterId.getD (-1))
  match limit with
  | some limit => sqlLimit limit rows
  | none => rows

def executionClear (scopeId : Bytes) : SqliteDb × Nat :=
  (db.clear scopeId, db.clearCount scopeId)

def workerPut (executionId : Bytes) (worker : WorkerStateKey) (state : Bytes) :
    Except StorageError SqliteDb := do
  let key ← workerStateKey worker
  .ok (db.put executionId nsWorker key state)

/-- Rows as a statement without `ORDER BY` reads them off the primary key: by the bytes of
their keys. -/
def inKeyOrder (rows : List (Bytes × Bytes)) : List (Bytes × Bytes) :=
  rows.insertionSort fun left right => (compare left.1 right.1).isLE = true

theorem inKeyOrder_perm (rows : List (Bytes × Bytes)) : (inKeyOrder rows).Perm rows :=
  List.perm_insertionSort _ _

def workerCollect (executionId : Bytes) : SqliteDb × List Bytes :=
  (db.drain executionId nsWorker, (inKeyOrder (db.entries executionId nsWorker)).map (·.2))

def workerScan (executionId : Bytes) : List (Number × Bytes) :=
  (inKeyOrder (db.entries executionId nsWorker)).map fun row => (int64FromKey row.1, row.2)

def queuePush (executionId : Bytes) (items : List Bytes) : SqliteDb × Nat :=
  (db.push executionId items, items.length)

def queuePop (executionId : Bytes) : SqliteDb × Option Bytes :=
  (db.pop executionId, db.front? executionId)

def queueClear (executionId : Bytes) : SqliteDb × Nat :=
  (db.clearQueue executionId, db.queueLength executionId)

def perform : Operation → SqliteDb × Outcome
  | .workerPut executionId worker state =>
      match workerPut db executionId worker state with
      | .ok after => (after, .ok .done)
      | .error fault => (db, .error fault)
  | .workerCollect executionId =>
      let (after, values) := workerCollect db executionId
      (after, .ok (.states values))
  | .workerScan executionId => (db, .ok (.workers (workerScan db executionId)))
  | .queuePush executionId items =>
      let (after, count) := queuePush db executionId items
      (after, .ok (.count count))
  | .queuePop executionId =>
      let (after, item) := queuePop db executionId
      (after, .ok (.value item))
  | .queueClear executionId =>
      let (after, count) := queueClear db executionId
      (after, .ok (.count count))
  | .stateGet scopeId ns key => (db, .ok (.value (stateGet db scopeId ns key)))
  | .statePut scopeId ns key value => (statePut db scopeId ns key value, .ok .done)
  | .stateAppend scopeId ns key item =>
      let (after, id) := stateAppend db scopeId ns key item
      (after, .ok (.logId id))
  | .stateLogScan scopeId ns key afterId limit =>
      (db, .ok (.logRows (stateLogScan db scopeId ns key afterId limit)))
  | .executionClear scopeId =>
      let (after, count) := executionClear db scopeId
      (after, .ok (.count count))

end FunctionStorageSqlite

end VgiWorker.Storage
