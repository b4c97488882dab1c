import VgiWorker.Protocol.Arguments

/-!
# Protocol records

The deserialized requests that the handlers and the function hooks see. `none`
is `null`.
-/

set_option autoImplicit false

namespace VgiWorker.Protocol

open VgiWorker.Js VgiWorker.Arrow

inductive FunctionType where
  | scalar
  | table
  | tableBuffering
  | aggregate
  /-- A wire name outside the enumeration, which is cast. -/
  | other (name : Text)
  deriving DecidableEq

def FunctionType.value : FunctionType → Text
  | .scalar => text "scalar"
  | .table => text "table"
  | .tableBuffering => text "table_buffering"
  | .aggregate => text "aggregate"
  | .other name => name

inductive TableInOutPhase where
  | input
  | finalize
  | tableBuffering
  | tableBufferingFinalize
  deriving DecidableEq

inductive OrderByDirection where
  | asc
  | desc
  deriving DecidableEq

inductive OrderByNullOrder where
  | nullsFirst
  | nullsLast
  deriving DecidableEq

structure CopyFromContext where
  format : Text
  filePath : Text
  expectedSchema : Schema

structure CopyToContext where
  format : Text
  filePath : Text

structure BindRequest where
  functionName : Text
  arguments : Arguments
  functionType : FunctionType
  inputSchema : Option Schema
  settings : Option Batch
  secrets : Option Batch
  attachOpaqueData : Option Bytes
  transactionOpaqueData : Option Bytes
  resolvedSecretsProvided : Bool
  copyFrom : Option CopyFromContext
  copyTo : Option CopyToContext
  atUnit : Option Text
  atValue : Option Text
  schemaPath : Option (List Text)
  argumentNames : Option (List (Option Text))

structure InitRequest where
  bindCall : BindRequest
  outputSchema : Schema
  bindOpaqueData : Option Bytes
  projectionIds : Option (List Number)
  pushdownFilters : Option Batch
  joinKeys : List Batch
  phase : Option TableInOutPhase
  finalizeStateId : Option Bytes
  splitTokens : Option (List Bytes)
  /-- Derived by the handler, never read off the wire. -/
  splitPayloads : Option (List Bytes)
  rowLimit : Option Number
  executionId : Option Bytes
  initOpaqueData : Option Bytes
  substreamId : Option Bytes
  orderByColumnName : Option Text
  orderByDirection : Option OrderByDirection
  orderByNullOrder : Option OrderByNullOrder
  orderByLimit : Option Int
  tablesamplePercentage : Option Number
  tablesampleSeed : Option Int

structure GlobalInitResponse where
  maxWorkers : Number
  executionId : Bytes
  opaqueData : Option Bytes

structure TableFunctionCardinalityRequest where
  bindCall : BindRequest
  bindOpaqueData : Option Bytes

structure TableFunctionPlanRequest where
  bindCall : BindRequest
  bindOpaqueData : Option Bytes
  projectionIds : Option (List Number)
  pushdownFilters : Option Bytes
  joinKeys : Option (List Bytes)
  rowLimit : Option Int
  targetSplitBytes : Option Int
  minSplits : Option Int
  maxSplitsPerResponse : Option Int
  cursor : Option Bytes
  refinedFilters : Option Bytes
  filtersComplete : Bool
  startPosition : Option Bytes
  endPosition : Option Bytes
  orderByColumnName : Option Text
  orderByDirection : Option OrderByDirection
  orderByNullOrder : Option OrderByNullOrder
  orderByLimit : Option Int
  tablesamplePercentage : Option Number
  tablesampleSeed : Option Int

def BindRequest.withAttach (request : BindRequest) (attach : Option Bytes) : BindRequest :=
  { request with attachOpaqueData := attach }

def InitRequest.withAttach (request : InitRequest) (attach : Option Bytes) : InitRequest :=
  { request with bindCall := request.bindCall.withAttach attach }

def InitRequest.withSplitPayloads (request : InitRequest) (payloads : Option (List Bytes)) :
    InitRequest :=
  { request with splitPayloads := payloads }

end VgiWorker.Protocol
