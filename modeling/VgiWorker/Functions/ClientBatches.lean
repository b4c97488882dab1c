import VgiWorker.Arrow.NestedData
import VgiWorker.Arrow.Projection
import VgiWorker.Data.Generators
import VgiWorker.Functions.FilteringCollector

/-!
# Table functions of the client

The row and the batch form of a call to a table function, and of one with input. Both
read the rows of the worker's replies; the batch form builds batches of the schema that
bind answered.
-/

set_option autoImplicit false

namespace VgiWorker.Functions.ClientBatches

open VgiWorker.Js VgiWorker.Arrow

abbrev RichRow := List (Text × Rich)

/-- A batch a worker emitted, and the rows the session delivers for it. -/
structure Delivery where
  batch : Batch
  rows : List RichRow

/-- What an init opens: the replies of a producer, and those to inputs that are exchanged. -/
structure Session where
  replies : Yielded Text Delivery
  exchangeContinued : List Batch → Yielded Text Delivery
  executionId : Bytes

section

/- The pushed down filters and hints, and the arguments, pass through a call unchanged. -/
variable {Arguments Hints : Type}

structure BindCall (Arguments : Type) where
  functionName : Text
  args : Option Arguments
  inputSchema : Option Schema
  settings : Option Batch
  transactionOpaqueData : Option Bytes
  attachOpaqueData : Option Bytes

structure BindResponse where
  outputSchema : Schema
  opaqueData : Option Bytes

inductive TableInOutPhase where
  | input | finalize
  deriving DecidableEq

structure InitCall (Arguments Hints : Type) where
  bindCall : BindCall Arguments
  outputSchema : Schema
  bindOpaqueData : Option Bytes
  projectionIds : Option (List Int)
  hints : Hints
  phase : Option TableInOutPhase
  executionId : Option Bytes

/-- The transport of a client, and what the client binds every call to. -/
structure Transport (Arguments Hints : Type) where
  defaultAttachOpaqueData : Option Bytes
  bind : BindCall Arguments → Except Text BindResponse
  init : InitCall Arguments Hints → Except Text Session

inductive Int64Mode where
  | numberIfSafe | bigint
  deriving DecidableEq

structure TableFunctionOptions (Arguments Hints : Type) where
  functionName : Text
  args : Option Arguments
  settings : Option Batch
  transactionOpaqueData : Option Bytes
  attachOpaqueData : Option Bytes
  projectionIds : Option (List Int)
  hints : Hints

structure TableInOutFunctionOptions (Arguments Hints : Type)
    extends TableFunctionOptions Arguments Hints where
  input : List Batch
  hasFinalize : Option Bool

/-! ## Bind and init -/

def bindCall (transport : Transport Arguments Hints)
    (options : TableFunctionOptions Arguments Hints) (inputSchema : Option Schema) :
    BindCall Arguments where
  functionName := options.functionName
  args := options.args
  inputSchema
  settings := options.settings
  transactionOpaqueData := options.transactionOpaqueData
  attachOpaqueData := options.attachOpaqueData.or transport.defaultAttachOpaqueData

def initCall (options : TableFunctionOptions Arguments Hints) (bound : BindCall Arguments)
    (response : BindResponse) (phase : Option TableInOutPhase) (executionId : Option Bytes) :
    InitCall Arguments Hints where
  bindCall := bound
  outputSchema := response.outputSchema
  bindOpaqueData := response.opaqueData
  projectionIds := options.projectionIds
  hints := options.hints
  phase
  executionId

/-! ## Rows -/

/-- Names of the top-level 64-bit integer fields. -/
def int64ColumnNames (schema : Schema) : List Text :=
  (schema.fields.filter fun field =>
    match field.type with
    | .int bitWidth _ => bitWidth == 64
    | _ => false).map FieldOf.name

def int64Value (mode : Int64Mode) (value : Rich) : Rich :=
  match mode, value with
  | .bigint, .number number =>
      match number.toInt? with
      | some integer => .bigint integer
      | none => .number number
  | .numberIfSafe, .bigint integer =>
      if integer.natAbs ≤ Number.maxSafeInteger then .number (Number.ofInt integer)
      else .bigint integer
  | _, value => value

/-- A member is only set when the mode changes it. -/
def applyInt64Mode (columns : List Text) (mode : Int64Mode) (rows : List RichRow) :
    List RichRow :=
  rows.map fun row => row.map fun entry =>
    if entry.1 ∈ columns then (entry.1, int64Value mode entry.2) else entry

def nonEmpty (rows : List RichRow) : Bool :=
  !rows.isEmpty

def tableFunctionRows (transport : Transport Arguments Hints)
    (options : TableFunctionOptions Arguments Hints) (int64 : Option Int64Mode) :
    Yielded Text (List RichRow) :=
  let bound := bindCall transport options none
  match transport.bind bound with
  | .error failure => .fail failure
  | .ok response =>
      match transport.init (initCall options bound response none none) with
      | .error failure => .fail failure
      | .ok session =>
          let rows := (session.replies.map Delivery.rows).filter nonEmpty
          match int64 with
          | none => rows
          | some mode => rows.map (applyInt64Mode (int64ColumnNames response.outputSchema) mode)

def noInput (functionName : Text) : Text :=
  text "tableInOutFunction(" ++ functionName ++ text "): input iterator yielded no batches; " ++
    text "at least one batch is required to determine the input schema"

def tableInOutFunctionRows (transport : Transport Arguments Hints)
    (options : TableInOutFunctionOptions Arguments Hints) : Yielded Text (List RichRow) :=
  match options.input with
  | [] => .fail (noInput options.functionName)
  | firstBatch :: others =>
      let bound := bindCall transport options.toTableFunctionOptions (some firstBatch.schema)
      match transport.bind bound with
      | .error failure => .fail failure
      | .ok response =>
          let options' := options.toTableFunctionOptions
          match transport.init (initCall options' bound response (some .input) none) with
          | .error failure => .fail failure
          | .ok session =>
              let inputRows := ((session.exchangeContinued (firstBatch :: others)).map
                Delivery.rows).filter nonEmpty
              inputRows.andThen <|
                if options.hasFinalize = some false then ⟨[], none⟩
                else
                  match transport.init (initCall options' bound response (some .finalize)
                      (some session.executionId)) with
                  | .error failure => .fail failure
                  | .ok finalize => (finalize.replies.map Delivery.rows).filter nonEmpty

/-! ## Batches -/

section

variable {library : VectorLibrary} (nested : Nested.NestedVectors library)
  (dateText : Number → Text)

/-- `batchFromRows` of the arrow-js backend. -/
def batchFromRows (schema : Schema) (rows : List RichRow) : Except Text Batch :=
  if rows.isEmpty then .ok (emptyBatch schema)
  else
    Nested.batchFromColumns nested dateText
      (schema.fields.map fun field =>
        (field.name, rows.map fun row => (lookupEntry row field.name).getD .null)) schema

def tableFunction (transport : Transport Arguments Hints)
    (options : TableFunctionOptions Arguments Hints) : Yielded Text Batch :=
  let bound := bindCall transport options none
  match transport.bind bound with
  | .error failure => .fail failure
  | .ok response =>
      match transport.init (initCall options bound response none none) with
      | .error failure => .fail failure
      | .ok session =>
          ((session.replies.map Delivery.rows).filter nonEmpty).convert
            (batchFromRows nested dateText response.outputSchema)

def tableInOutFunction (transport : Transport Arguments Hints)
    (options : TableInOutFunctionOptions Arguments Hints) : Yielded Text Batch :=
  match options.input with
  | [] => .fail (noInput options.functionName)
  | firstBatch :: others =>
      let bound := bindCall transport options.toTableFunctionOptions (some firstBatch.schema)
      match transport.bind bound with
      | .error failure => .fail failure
      | .ok response =>
          let options' := options.toTableFunctionOptions
          match transport.init (initCall options' bound response (some .input) none) with
          | .error failure => .fail failure
          | .ok session =>
              let inputRows := ((session.exchangeContinued (firstBatch :: others)).map
                Delivery.rows).filter nonEmpty
              (inputRows.convert (batchFromRows nested dateText response.outputSchema)).andThen <|
                if options.hasFinalize = some false then ⟨[], none⟩
                else
                  match transport.init (initCall options' bound response (some .finalize)
                      (some session.executionId)) with
                  | .error failure => .fail failure
                  | .ok finalize =>
                      ((finalize.replies.map Delivery.rows).filter nonEmpty).convert
                        (batchFromRows nested dateText response.outputSchema)

end

/-- The schema of the batches a worker emits. -/
def emittedSchema (projectionPushdown : Bool) (projectionIds : Option (List Int))
    (outputSchema : Schema) : Except Text Schema :=
  if projectionPushdown then Projection.projectSchema projectionIds outputSchema
  else .ok outputSchema

end

end VgiWorker.Functions.ClientBatches
