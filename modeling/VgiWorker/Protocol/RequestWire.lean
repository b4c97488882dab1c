import VgiWorker.Protocol.Records
import VgiWorker.Protocol.Requests

/-!
# Bind and init requests on the wire

How the requests are written as records, and what is read back from any record.
-/

set_option autoImplicit false

namespace VgiWorker.Protocol

open VgiWorker.Js VgiWorker.Arrow

/-- The Arrow library and the locale data of the runtime. -/
structure Runtime where
  serializeBatch : Batch → Bytes
  deserializeBatch : Bytes → Except Text Batch
  serializeSchema : Schema → Bytes
  deserializeSchema : Bytes → Except Text Schema
  toUpperCase : Text → Text
  dateText : Number → Text

def libraryResult {α : Type} (result : Except Text α) : Except WireFault α :=
  result.mapError .error

def argumentsResult {α : Type} (result : Except ArgumentsFault α) : Except WireFault α :=
  result.mapError .arguments

/-! ## Schemas -/

def wireField (name : String) (type : DataType) (nullable : Bool) : Field :=
  ⟨text name, type, nullable, .empty⟩

def enumType : DataType := .dictionary 0 .utf8 (.int 16 true) false

def copyFromStructType : DataType :=
  .struct [wireField "format" .utf8 false, wireField "file_path" .utf8 false,
    wireField "expected_schema" .binary false]

def copyToStructType : DataType :=
  .struct [wireField "format" .utf8 false, wireField "file_path" .utf8 false]

def bindRequestSchema : Schema where
  fields :=
    [wireField "function_name" .utf8 false,
      wireField "arguments" .binary false,
      wireField "function_type" enumType false,
      wireField "input_schema" .binary true,
      wireField "settings" .binary true,
      wireField "secrets" .binary true,
      wireField "attach_opaque_data" .binary true,
      wireField "transaction_opaque_data" .binary true,
      wireField "resolved_secrets_provided" .bool false,
      wireField "at_unit" .utf8 true,
      wireField "at_value" .utf8 true,
      wireField "copy_from" copyFromStructType true,
      wireField "copy_to" copyToStructType true,
      wireField "schema_path" (.list [wireField "item" .utf8 true]) true,
      wireField "argument_names" (.list [wireField "item" .utf8 true]) true]
  metadata := .empty

def initRequestSchema : Schema where
  fields :=
    [wireField "bind_call" .binary false,
      wireField "output_schema" .binary false,
      wireField "bind_opaque_data" .binary true,
      wireField "projection_ids" (.list [wireField "item" (.int 64 true) true]) true,
      wireField "pushdown_filters" .largeBinary true,
      wireField "join_keys" (.list [wireField "item" .largeBinary true]) true,
      wireField "split_tokens" (.list [wireField "item" .largeBinary true]) true,
      wireField "row_limit" (.int 64 true) true,
      wireField "phase" enumType true,
      wireField "finalize_state_id" .binary true,
      wireField "execution_id" .binary true,
      wireField "init_opaque_data" .binary true,
      wireField "substream_id" .binary true,
      wireField "order_by_column_name" .utf8 true,
      wireField "order_by_direction" enumType true,
      wireField "order_by_null_order" enumType true,
      wireField "order_by_limit" (.int 64 true) true,
      wireField "tablesample_percentage" (.float .double) true,
      wireField "tablesample_seed" (.int 64 true) true]
  metadata := .empty

/-! ## Members -/

/-- `value ?? null` of a member. -/
def orNull {α : Type} (rich : α → Rich) (value : Option α) : Rich :=
  match value with
  | some value => rich value
  | none => .null

def Rich.truthy : Rich → Bool
  | .null => false
  | .bool value => value
  | .number value => !(value.isNaN || value.toRat? == some 0)
  | .bigint value => decide (value ≠ 0)
  | .string value => !value.isEmpty
  | _ => true

def typeofRich : Rich → Text
  | .null => text "undefined"
  | .bool _ => text "boolean"
  | .number _ => text "number"
  | .bigint _ => text "bigint"
  | .string _ => text "string"
  | _ => text "object"

/-- The serializers' `toUint8Array`: a value that gives no bytes is refused, an empty byte array
among them. -/
def toUint8Array : Rich → Except WireFault Bytes
  | .null => .ok []
  | .string value => .ok (utf8Encode value)
  | .bytes (first :: rest) => .ok (first :: rest)
  | value => .error (.error (text "Cannot convert " ++ typeofRich value ++ text " to Uint8Array"))

/-- `value ? toUint8Array(value) : null`. -/
def bytesOrNull (value : Rich) : Except WireFault (Option Bytes) :=
  if Rich.truthy value then some <$> toUint8Array value else .ok none

/-- A member of an object; what is no object has none. -/
def propertyOf (value : Rich) (name : Text) : Rich :=
  match value with
  | .object entries => rowMember entries name
  | _ => .null

/-- The elements of an iterable, `none` of anything else. -/
def iterate? (value : Rich) : Option (List Rich) :=
  (richElements value).toOption

/-- `Number(value)`. -/
def numberOf : Rich → Number
  | .date time => time
  | value => value.toValue.toNumber

section

variable (runtime : Runtime)

def stringOf (value : Rich) : Text :=
  value.toText runtime.dateText

/-- `value ? String(value) : null`. -/
def textOrNull (value : Rich) : Option Text :=
  if Rich.truthy value then some (stringOf runtime value) else none

def schemaOrNull (value : Rich) : Except WireFault (Option Schema) :=
  if Rich.truthy value then do
    let bytes ← toUint8Array value
    some <$> libraryResult (runtime.deserializeSchema bytes)
  else .ok none

def batchOrNull (value : Rich) : Except WireFault (Option Batch) :=
  if Rich.truthy value then do
    let bytes ← toUint8Array value
    some <$> libraryResult (runtime.deserializeBatch bytes)
  else .ok none

/-! ## `BindRequest` -/

def FunctionType.ofWire (name : Text) : FunctionType :=
  if name = text "scalar" ∨ name = text "SCALAR" then .scalar
  else if name = text "table" ∨ name = text "TABLE" then .table
  else if name = text "table_buffering" ∨ name = text "TABLE_BUFFERING" then .tableBuffering
  else if name = text "aggregate" ∨ name = text "AGGREGATE" then .aggregate
  else .other name

def copyFromRich (context : CopyFromContext) : Rich :=
  .object
    [(text "format", .string context.format), (text "file_path", .string context.filePath),
      (text "expected_schema", .bytes (runtime.serializeSchema context.expectedSchema))]

def copyToRich (context : CopyToContext) : Rich :=
  .object [(text "format", .string context.format), (text "file_path", .string context.filePath)]

def bindRow (request : BindRequest) (arguments : Bytes) : Row :=
  [(text "function_name", .string request.functionName),
    (text "arguments", .bytes arguments),
    (text "function_type", .string (runtime.toUpperCase request.functionType.value)),
    (text "input_schema", orNull (fun schema => .bytes (runtime.serializeSchema schema))
      request.inputSchema),
    (text "settings", orNull (fun batch => .bytes (runtime.serializeBatch batch)) request.settings),
    (text "secrets", orNull (fun batch => .bytes (runtime.serializeBatch batch)) request.secrets),
    (text "attach_opaque_data", orNull .bytes request.attachOpaqueData),
    (text "transaction_opaque_data", orNull .bytes request.transactionOpaqueData),
    (text "resolved_secrets_provided", .bool request.resolvedSecretsProvided),
    (text "at_unit", orNull .string request.atUnit),
    (text "at_value", orNull .string request.atValue),
    (text "copy_from", orNull (copyFromRich runtime) request.copyFrom),
    (text "copy_to", orNull copyToRich request.copyTo),
    (text "schema_path", orNull (fun path => .array (path.map .string)) request.schemaPath),
    (text "argument_names", orNull (fun names => .array (names.map (orNull .string)))
      request.argumentNames)]

def serializeBindRequest (request : BindRequest) : Except WireFault Batch := do
  let arguments ← argumentsResult
    (serializeArguments runtime.dateText runtime.serializeBatch request.arguments)
  buildSingleRowBatch runtime.dateText bindRequestSchema (bindRow runtime request arguments)

def parseCopyFromContext (raw : Rich) : Except WireFault (Option CopyFromContext) :=
  match propertyOf raw (text "format"), propertyOf raw (text "file_path"),
      propertyOf raw (text "expected_schema") with
  | .null, _, _ | _, .null, _ | _, _, .null => .ok none
  | format, filePath, schemaBytes => do
      let bytes ← toUint8Array schemaBytes
      let expectedSchema ← libraryResult (runtime.deserializeSchema bytes)
      .ok (some ⟨stringOf runtime format, stringOf runtime filePath, expectedSchema⟩)

def parseCopyToContext (raw : Rich) : Option CopyToContext :=
  match propertyOf raw (text "format"), propertyOf raw (text "file_path") with
  | .null, _ | _, .null => none
  | format, filePath => some ⟨stringOf runtime format, stringOf runtime filePath⟩

/-- `value ? [...value].map(read) : null`. -/
def itemsOrNull {α : Type} (read : Rich → α) (value : Rich) : Except WireFault (Option (List α)) :=
  if Rich.truthy value then
    match iterate? value with
    | some items => .ok (some (items.map read))
    | none => .error (.error (text "value is not iterable"))
  else .ok none

def deserializeBindRequest (params : Row) : Except WireFault BindRequest := do
  let arguments ←
    if Rich.truthy (rowMember params (text "arguments")) then do
      let bytes ← toUint8Array (rowMember params (text "arguments"))
      argumentsResult (deserializeArguments runtime.dateText runtime.deserializeBatch bytes)
    else .ok .empty
  let inputSchema ← schemaOrNull runtime (rowMember params (text "input_schema"))
  let settings ← batchOrNull runtime (rowMember params (text "settings"))
  let secrets ← batchOrNull runtime (rowMember params (text "secrets"))
  let attachOpaqueData ← bytesOrNull (rowMember params (text "attach_opaque_data"))
  let transactionOpaqueData ← bytesOrNull (rowMember params (text "transaction_opaque_data"))
  let schemaPath ← itemsOrNull (stringOf runtime) (rowMember params (text "schema_path"))
  let argumentNames ← itemsOrNull
    (fun value => if isRichNull value then none else some (stringOf runtime value))
    (rowMember params (text "argument_names"))
  let copyFrom ← parseCopyFromContext runtime (rowMember params (text "copy_from"))
  .ok
    { functionName := stringOf runtime (rowMember params (text "function_name"))
      arguments
      functionType :=
        FunctionType.ofWire (stringOf runtime (rowMember params (text "function_type")))
      inputSchema
      settings
      secrets
      attachOpaqueData
      transactionOpaqueData
      resolvedSecretsProvided := Rich.truthy (rowMember params (text "resolved_secrets_provided"))
      copyFrom
      copyTo := parseCopyToContext runtime (rowMember params (text "copy_to"))
      atUnit := textOrNull runtime (rowMember params (text "at_unit"))
      atValue := textOrNull runtime (rowMember params (text "at_value"))
      schemaPath
      argumentNames }

/-! ## `InitRequest` -/

def TableInOutPhase.value : TableInOutPhase → Text
  | .input => text "INPUT"
  | .finalize => text "FINALIZE"
  | .tableBuffering => text "TABLE_BUFFERING"
  | .tableBufferingFinalize => text "TABLE_BUFFERING_FINALIZE"

def OrderByDirection.value : OrderByDirection → Text
  | .asc => text "ASC"
  | .desc => text "DESC"

def OrderByNullOrder.value : OrderByNullOrder → Text
  | .nullsFirst => text "NULLS_FIRST"
  | .nullsLast => text "NULLS_LAST"

/-- `BigInt(number)`. -/
def bigIntOfNumber (number : Number) : Except WireFault Int :=
  match number.toInt? with
  | some integer => .ok integer
  | none =>
      .error (.rangeError (text "The number " ++ number.toText ++
        text " cannot be converted to a BigInt because it is not an integer"))

def initRow (request : InitRequest) (bindCall : Bytes) (projectionIds : Option (List Int)) : Row :=
  [(text "bind_call", .bytes bindCall),
    (text "output_schema", .bytes (runtime.serializeSchema request.outputSchema)),
    (text "bind_opaque_data", orNull .bytes request.bindOpaqueData),
    (text "projection_ids", orNull (fun ids => .array (ids.map .bigint)) projectionIds),
    (text "pushdown_filters", orNull (fun batch => .bytes (runtime.serializeBatch batch))
      request.pushdownFilters),
    (text "join_keys", .array (request.joinKeys.map fun batch =>
      .bytes (runtime.serializeBatch batch))),
    (text "split_tokens", orNull (fun tokens => .array (tokens.map .bytes)) request.splitTokens),
    (text "row_limit", orNull .number request.rowLimit),
    (text "phase", orNull (fun phase => .string phase.value) request.phase),
    (text "finalize_state_id", orNull .bytes request.finalizeStateId),
    (text "execution_id", orNull .bytes request.executionId),
    (text "init_opaque_data", orNull .bytes request.initOpaqueData),
    (text "substream_id", orNull .bytes request.substreamId),
    (text "order_by_column_name", orNull .string request.orderByColumnName),
    (text "order_by_direction", orNull (fun direction => .string direction.value)
      request.orderByDirection),
    (text "order_by_null_order", orNull (fun order => .string order.value)
      request.orderByNullOrder),
    (text "order_by_limit", orNull .bigint request.orderByLimit),
    (text "tablesample_percentage", orNull .number request.tablesamplePercentage),
    (text "tablesample_seed", orNull .bigint request.tablesampleSeed)]

def serializeInitRequest (request : InitRequest) : Except WireFault Batch := do
  let bindCall ← serializeBindRequest runtime request.bindCall
  let projectionIds ← request.projectionIds.mapM fun ids => ids.mapM bigIntOfNumber
  buildSingleRowBatch runtime.dateText initRequestSchema
    (initRow runtime request (runtime.serializeBatch bindCall) projectionIds)

def projectionIdsOf (raw : Rich) : Option (List Number) :=
  if isRichNull raw then none
  else if Rich.truthy raw then (iterate? raw).map fun items => items.map numberOf
  else none

def TableInOutPhase.ofWire (name : Text) : Option TableInOutPhase :=
  if name = text "INPUT" then some .input
  else if name = text "FINALIZE" then some .finalize
  else if name = text "TABLE_BUFFERING" then some .tableBuffering
  else if name = text "TABLE_BUFFERING_FINALIZE" then some .tableBufferingFinalize
  else none

def OrderByDirection.ofWire (name : Text) : Option OrderByDirection :=
  if name = text "ASC" then some .asc
  else if name = text "DESC" then some .desc
  else none

def OrderByNullOrder.ofWire (name : Text) : Option OrderByNullOrder :=
  if name = text "NULLS_FIRST" then some .nullsFirst
  else if name = text "NULLS_LAST" then some .nullsLast
  else none

def nonNull (raw : Rich) : Option Rich :=
  if isRichNull raw then none else some raw

/-- One list item of `join_keys`; a malformed batch is skipped. -/
def joinKeyOf (entry : Rich) : Option Batch := do
  let entry ← nonNull entry
  let bytes ← (toUint8Array entry).toOption
  (runtime.deserializeBatch bytes).toOption

def joinKeysOf (raw : Rich) : List Batch :=
  ((nonNull raw).bind iterate?).getD [] |>.filterMap (joinKeyOf runtime)

def splitTokensOf (raw : Rich) : Except WireFault (Option (List Bytes)) :=
  match nonNull raw with
  | none => .ok none
  | some raw => do
      let tokens ← (((iterate? raw).getD []).filterMap nonNull).mapM toUint8Array
      .ok (if tokens = [] then none else some tokens)

def parseBigInt (raw : Rich) : Except WireFault (Option Int) :=
  match raw with
  | .null => .ok none
  | .bigint value => .ok (some value)
  | .number value => some <$> bigIntOfNumber value
  | value => .ok (Number.bigIntOfText? (stringOf runtime value))

def parseNumber (raw : Rich) : Option Number :=
  match raw with
  | .null => none
  | .number value => some value
  | value => if (numberOf value).isNaN then none else some (numberOf value)

def deserializeInitRequest (params : Row) : Except WireFault InitRequest := do
  let bindCallBytes ← toUint8Array (rowMember params (text "bind_call"))
  let bindCallBatch ← libraryResult (runtime.deserializeBatch bindCallBytes)
  let bindParams ← batchToScalarDict runtime.dateText bindCallBatch
  let bindCall ← deserializeBindRequest runtime bindParams
  let outputSchemaBytes ← toUint8Array (rowMember params (text "output_schema"))
  let outputSchema ← libraryResult (runtime.deserializeSchema outputSchemaBytes)
  let bindOpaqueData ← bytesOrNull (rowMember params (text "bind_opaque_data"))
  let pushdownFilters ← batchOrNull runtime (rowMember params (text "pushdown_filters"))
  let finalizeStateId ← bytesOrNull (rowMember params (text "finalize_state_id"))
  let splitTokens ← splitTokensOf (rowMember params (text "split_tokens"))
  let executionId ← bytesOrNull (rowMember params (text "execution_id"))
  let initOpaqueData ← bytesOrNull (rowMember params (text "init_opaque_data"))
  let substreamId ← bytesOrNull (rowMember params (text "substream_id"))
  let orderByLimit ← parseBigInt runtime (rowMember params (text "order_by_limit"))
  let tablesampleSeed ← parseBigInt runtime (rowMember params (text "tablesample_seed"))
  .ok
    { bindCall
      outputSchema
      bindOpaqueData
      projectionIds := projectionIdsOf (rowMember params (text "projection_ids"))
      pushdownFilters
      joinKeys := joinKeysOf runtime (rowMember params (text "join_keys"))
      phase := (nonNull (rowMember params (text "phase"))).bind fun phase =>
        TableInOutPhase.ofWire (stringOf runtime phase)
      finalizeStateId
      splitTokens
      splitPayloads := none
      rowLimit := (nonNull (rowMember params (text "row_limit"))).map numberOf
      executionId
      initOpaqueData
      substreamId
      orderByColumnName :=
        (nonNull (rowMember params (text "order_by_column_name"))).map (stringOf runtime)
      orderByDirection := (nonNull (rowMember params (text "order_by_direction"))).bind fun direction =>
        OrderByDirection.ofWire (stringOf runtime direction)
      orderByNullOrder := (nonNull (rowMember params (text "order_by_null_order"))).bind fun order =>
        OrderByNullOrder.ofWire (stringOf runtime order)
      orderByLimit
      tablesamplePercentage := parseNumber (rowMember params (text "tablesample_percentage"))
      tablesampleSeed }

end

end VgiWorker.Protocol
