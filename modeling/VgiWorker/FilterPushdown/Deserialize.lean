import VgiWorker.FilterPushdown.Types

/-!
# The filter parser

`FilterParser` reads one snapshot or delta document. The node counter of a
document is the state its expressions are read under.
-/

set_option autoImplicit false

namespace VgiWorker.FilterPushdown

open VgiWorker.Js VgiWorker.Arrow

def maxJsonBytes : Nat := 2 ^ 20

def maxDepth : Nat := 64

def maxNodes : Nat := 10000

def maxPredicates : Nat := 1024

def maxPredicateIds : Nat := 4096

def maxArguments : Nat := 256

def maxIdBytes : Nat := 128

def maxFingerprintBytes : Nat := 256

/-! ## Names -/

def isLower (unit : CodeUnit) : Bool :=
  97 ≤ unit.toNat && unit.toNat ≤ 122

def isLowerOrDigit (unit : CodeUnit) : Bool :=
  isLower unit || Number.isDigit unit

def isLowerDigitOrUnderscore (unit : CodeUnit) : Bool :=
  isLowerOrDigit unit || unit == 95

/-- A number in its canonical decimal spelling. -/
def isCanonicalDecimal (digits : Text) : Bool :=
  digits == text "0" || (digits.head?.any (· != 48) && !digits.isEmpty && digits.all Number.isDigit)

/-- `PAYLOAD_NAME`. -/
def isPayloadName (name : Text) : Bool :=
  [text "value_", text "type_", text "artifact_"].any fun kind =>
    kind.isPrefixOf name && isCanonicalDecimal (name.drop kind.length)

def splitDots : Text → List Text
  | [] => [[]]
  | unit :: rest =>
      if unit = 46 then [] :: splitDots rest
      else match splitDots rest with
        | part :: parts => (unit :: part) :: parts
        | [] => [[unit]]

/-- `IDENTITY_NAME`. -/
def isIdentityName (name : Text) : Bool :=
  name.head?.any isLower && name.tail.all isLowerDigitOrUnderscore

/-- `IDENTITY_NAMESPACE`. -/
def isIdentityNamespace (name : Text) : Bool :=
  match splitDots name with
  | first :: parts =>
      first.head?.any isLower && first.tail.all isLowerOrDigit && parts.all isIdentityName
  | [] => false

/-! ## Checks on JSON values -/

def throwV2 {α : Type} (message : Text) : Except Fault α :=
  .error (.filterV2Error message)

/-- `if (condition) throw new FilterV2Error(message)`. -/
def refuse (condition : Prop) [Decidable condition] (message : Text) : Except Fault Unit :=
  if condition then throwV2 message else .ok ()

def expectObject (value : Option Json) (location : Text) : Except Fault Json :=
  match value with
  | some (.object members prototype) => .ok (.object members prototype)
  | _ => throwV2 (location ++ text " must be a JSON object")

def expectArray (value : Option Json) (location : Text) : Except Fault (List Json) :=
  match value with
  | some (.array elements) => .ok elements
  | _ => throwV2 (location ++ text " must be a JSON array")

def expectString (value : Option Json) (location : Text) : Except Fault Text :=
  match value with
  | some (.string string) =>
      if string = [] then throwV2 (location ++ text " must be a nonempty string") else .ok string
  | _ => throwV2 (location ++ text " must be a nonempty string")

def expectBoolean (value : Option Json) (location : Text) : Except Fault Bool :=
  match value with
  | some (.bool value) => .ok value
  | _ => throwV2 (location ++ text " must be a Boolean")

/-- A safe integer that is at least `least`. -/
def safeUint? (value : Json) (least : Nat) : Option Nat :=
  match value with
  | .number number =>
      match number.toInt? with
      | some integer =>
          if (least : Int) ≤ integer ∧ integer.natAbs ≤ Number.maxSafeInteger then
            some integer.toNat
          else none
      | none => none
  | _ => none

def expectUint (value : Option Json) (location : Text) (positive : Bool := false) :
    Except Fault Nat :=
  match value.bind fun value => safeUint? value (if positive then 1 else 0) with
  | some integer => .ok integer
  | none => throwV2 (location ++ text " must be a safely representable unsigned integer")

def expectKeys (object : Json) (required optional : List Text) (location : Text) :
    Except Fault Unit :=
  let missing := required.filter fun key => (object.get? key).isNone
  let unknown := object.ownKeys.filter fun key => !(required ++ optional).contains key
  if missing ≠ [] then throwV2 (location ++ text " is missing " ++ joinText (text ", ") missing)
  else if unknown ≠ [] then
    throwV2 (location ++ text " has unknown properties " ++ joinText (text ", ") unknown)
  else .ok ()

/-- The property names of the source, as object keys. -/
def keys (names : List String) : List Text :=
  names.map text

def property (object : Json) (name : String) : Option Json :=
  object.get? (text name)

mutual

/-- `String(value)` in a message. -/
def jsonText : Json → Text
  | .null => text "null"
  | .bool value => if value then text "true" else text "false"
  | .number value => value.toText
  | .string value => value
  | .array elements => joinText (text ",") (elementTexts elements)
  | .object _ _ => text "[object Object]"

/-- The elements of an array as `join` writes them, `null` as nothing. -/
def elementTexts : List Json → List Text
  | [] => []
  | .null :: rest => [] :: elementTexts rest
  | element :: rest => jsonText element :: elementTexts rest

end

mutual

def validateArrowExtensions : FieldOf DataType → Except Fault Unit
  | ⟨_, type, _, metadata⟩ => do
      match metadata.get? (text "ARROW:extension:name") with
      | some name =>
          if knownArrowExtensions.contains name then pure ()
          else throwV2 (text "unknown Arrow extension type " ++ name)
      | none => pure ()
      validateChildExtensions type

def validateChildExtensions : DataType → Except Fault Unit
  | .list children | .struct children | .union _ _ children | .fixedSizeList _ children
  | .map _ children => validateEachExtension children
  | _ => .ok ()

def validateEachExtension : List (FieldOf DataType) → Except Fault Unit
  | [] => .ok ()
  | field :: rest => do
      validateArrowExtensions field
      validateEachExtension rest

end

/-! ## The strict reader -/

/-- `StrictJsonParser`: any white space separates tokens, and a repeated name or a
number that overflows is refused. -/
def strictJson : Dialect where
  isSpace := Number.isWhiteSpace
  rejectsRepeatedNames := true
  rejectsNonFinite := true
  assign := assignProperty

def parseStrictJson (raw : Text) : Except Fault Json :=
  match readJson strictJson raw with
  | .ok value => .ok value
  | .error (.message offset message) =>
      throwV2 (text "invalid filter JSON at byte " ++ Number.decimal offset ++ text ": " ++ message)
  | .error .outOfFuel => .error .rangeError

/-! ## The evaluation context -/

def metadataValue (schema : Schema) (key : Text) : Except Fault Text :=
  match schema.metadata.get? key with
  | some value => .ok value
  | none => throwV2 (text "missing schema metadata " ++ key)

def metadataBool (schema : Schema) (key : Text) : Except Fault Bool := do
  let value ← metadataValue schema key
  if value ≠ text "true" ∧ value ≠ text "false" then
    throwV2 (key ++ text " must be true or false")
  else .ok (value = text "true")

def contextKeys : List Text :=
  [text "vgi_time_zone", text "vgi_calendar", text "vgi_default_collation",
    text "vgi_ieee_floating_point_ops", text "vgi_integer_division",
    text "vgi_context_provider_fingerprint"]

def parseContext (schema : Schema) : Except Fault EvaluationContext := do
  let encoding ← metadataValue schema (text "vgi_filter_encoding")
  refuse (encoding ≠ filterEncoding) (text "unsupported filter encoding")
  let version ← metadataValue schema (text "vgi_filter_version")
  refuse (version ≠ filterVersion) (text "unsupported filter version")
  let profile ← metadataValue schema (text "vgi_evaluation_context")
  if profile = noEvaluationContext then
    refuse (contextKeys.any schema.metadata.has)
      (text "vgi.none.v1 forbids DuckDB session context metadata")
    .ok { profile := profile }
  else
    refuse (profile ≠ duckdbSessionContext) (text "unknown evaluation context " ++ profile)
    let _ ← (contextKeys.take 5).mapM (metadataValue schema)
    let fingerprint := schema.metadata.get? (text "vgi_context_provider_fingerprint")
    refuse (fingerprint.any fun value => value.isEmpty || maxFingerprintBytes < utf8Length value)
      (text "invalid context provider fingerprint")
    .ok {
      profile := profile
      timeZone := some (← metadataValue schema (text "vgi_time_zone"))
      calendar := some (← metadataValue schema (text "vgi_calendar"))
      defaultCollation := some (← metadataValue schema (text "vgi_default_collation"))
      ieeeFloatingPointOps := some (← metadataBool schema (text "vgi_ieee_floating_point_ops"))
      integerDivision := some (← metadataBool schema (text "vgi_integer_division"))
      providerFingerprint := fingerprint }

/-! ## Types of expressions -/

def expressionType : FilterExpression → Option DataType
  | .columnRef _ _ dataType => dataType
  | .fieldRef _ _ _ dataType => some dataType
  | .literal _ field _ => some field.type
  | .cast _ _ field => some field.type
  | _ => none

def hasType (expression : FilterExpression) (test : DataType → Bool) : Bool :=
  (expressionType expression).any test

def validateStandardCall (function : StandardFilterFunction) (args : List FilterExpression) :
    Except Fault Unit :=
  let accepted :=
    match function with
    | .startsWith | .endsWith | .contains => args.all fun arg => hasType arg DataType.isUtf8
    | .listContains =>
        match (args[0]?.bind expressionType), (args[1]?.bind expressionType) with
        | some (.list (element :: _)), some needle =>
            typeSignature element.type == typeSignature needle
        | _, _ => false
  let name :=
    match function with
    | .startsWith => text "starts_with"
    | .endsWith => text "ends_with"
    | .contains => text "contains"
    | .listContains => text "list_contains"
  if accepted then .ok ()
  else throwV2 (name ++ text " arguments do not bind under vgi.duckdb.standard.v1")

/-- Whether an expression resolves to BOOLEAN. -/
def isBooleanExpression : FilterExpression → Bool
  | .comparison _ _ _ | .and _ | .or _ | .not _ | .isNull _ _ | .inSet _ _ _
  | .runtimeFilter _ _ _ _ _ _ _ | .call _ _ _ => true
  | expression => hasType expression DataType.isBool

def isContextual (type : DataType) : Bool :=
  type.isUtf8 || type.isDate || type.isTime || type.isTimestamp

mutual

def requiresSessionContext : FilterExpression → Bool
  | .arithmetic op left right =>
      op == .divide || op == .modulo || requiresSessionContext left || requiresSessionContext right
  | .cast expression _ field =>
      (hasType expression isContextual && isContextual field.type) ||
        requiresSessionContext expression
  | .fieldRef expression _ _ _ | .not expression | .isNull expression _ | .negate expression
  | .inSet expression _ _ => requiresSessionContext expression
  | .comparison _ left right => requiresSessionContext left || requiresSessionContext right
  | .and children | .or children | .call _ children _ => anyRequiresSessionContext children
  | .runtimeFilter _ input _ _ _ _ _ => requiresSessionContext input
  | .columnRef _ _ _ | .literal _ _ _ => false

def anyRequiresSessionContext : List FilterExpression → Bool
  | [] => false
  | expression :: rest => requiresSessionContext expression || anyRequiresSessionContext rest

end

/-! ## Payload columns -/

def valueAt (batch : Batch) (index : Nat) : Except Fault Value :=
  match batch.getChildAt index, batch.schema.fields[index]? with
  | some column, some _ => .ok (readCanonicalValue column 0)
  | _, _ => throwV2 (text "missing payload column " ++ Number.decimal index)

structure Payload where
  ref : Nat
  field : Field
  value : Value

/-- The positions of the fields called `name`, with the fields. -/
def fieldsNamed (fields : List Field) (name : Text) : List (Field × Nat) :=
  fields.zipIdx.filter fun entry => entry.1.name == name

def payload (batch : Batch) (kind : Text) (rawRef : Option Json) : Except Fault Payload := do
  let ref ← expectUint rawRef (kind ++ text "_ref")
  let name := kind ++ text "_" ++ Number.decimal ref
  match fieldsNamed batch.schema.fields name with
  | [(field, index)] => .ok ⟨ref, field, ← valueAt batch index⟩
  | _ => throwV2 (text "missing or duplicate payload " ++ name)

def identity (raw : Option Json) (location : Text) : Except Fault FunctionIdentity := do
  let object ← expectObject raw location
  expectKeys object (keys ["namespace", "name", "version"]) [] location
  let nameSpace ← expectString (property object "namespace") (location ++ text ".namespace")
  let name ← expectString (property object "name") (location ++ text ".name")
  let version ← expectUint (property object "version") (location ++ text ".version") true
  if !isIdentityNamespace nameSpace || !isIdentityName name then
    throwV2 (location ++ text " has a noncanonical identity")
  else .ok ⟨nameSpace, name, version⟩

/-! ## Expressions -/

/-- A reading step of one document, under its node counter. -/
abbrev Reading := StateT Nat (Except Fault)

/-- `++this.nodes > MAX_NODES`. -/
def countNode : Reading Unit := fun nodes =>
  if maxNodes < nodes + 1 then throwV2 (text "expression node limit exceeded")
  else .ok ((), nodes + 1)

namespace FilterParser

variable (batch : Batch) (options : DeserializeFilterOptions)

def columnRef (object : Json) : Except Fault FilterExpression := do
  expectKeys object (keys ["node", "column_index", "column_name"]) [] (text "column_ref")
  let columnIndex ← expectUint (property object "column_index") (text "column_ref.column_index")
  let columnName ← expectString (property object "column_name") (text "column_ref.column_name")
  match options.outputSchema.fields[columnIndex]? with
  | some field =>
      if field.name ≠ columnName then
        throwV2 (text "column_ref " ++ columnName ++ text " does not match index " ++
          Number.decimal columnIndex)
      else do
        validateArrowExtensions field
        .ok (.columnRef columnIndex columnName (some field.type))
  | none =>
      throwV2 (text "column_ref " ++ columnName ++ text " does not match index " ++
        Number.decimal columnIndex)

def literal (object : Json) : Except Fault FilterExpression := do
  expectKeys object (keys ["node", "value_ref"]) [] (text "literal")
  let read ← payload batch (text "value") (property object "value_ref")
  validateArrowExtensions read.field
  .ok (.literal read.ref read.field read.value)

/-- The set of an `in` node. -/
def filterSet (setObject : Json) : Except Fault FilterSet := do
  match property setObject "kind" with
  | some (.string kind) =>
      if kind = text "literal" then do
        expectKeys setObject (keys ["kind", "value_ref"]) [] (text "in.set")
        let read ← payload batch (text "value") (property setObject "value_ref")
        validateArrowExtensions read.field
        match read.value with
        | .array values =>
            if !read.field.type.isList then
              throwV2 (text "literal IN payload must be a non-NULL list")
            else .ok (.literal read.ref read.field values)
        | _ => throwV2 (text "literal IN payload must be a non-NULL list")
      else if kind = text "external" then do
        expectKeys setObject (keys ["kind", "batch_index", "column_index", "column_name"]) []
          (text "in.set")
        let batchIndex ← expectUint (property setObject "batch_index") (text "in.set.batch_index")
        let columnIndex ←
          expectUint (property setObject "column_index") (text "in.set.column_index")
        let columnName ←
          expectString (property setObject "column_name") (text "in.set.column_name")
        let keyBatch := options.joinKeyBatches.bind (·[batchIndex]?)
        match keyBatch, keyBatch.bind (·.schema.fields[columnIndex]?),
            keyBatch.bind (·.getChildAt columnIndex) with
        | some keyBatch, some field, some column =>
            if field.name ≠ columnName then
              throwV2 (text "external IN reference is unavailable or mismatched")
            else do
              validateArrowExtensions field
              .ok (.external batchIndex columnIndex columnName
                ((List.range keyBatch.numRows).map (readCanonicalValue column)) keyBatch)
        | _, _, _ => throwV2 (text "external IN reference is unavailable or mismatched")
      else throwV2 (text "unknown IN set kind")
  | _ => throwV2 (text "unknown IN set kind")

/-- The function a `call` node names. -/
def callFunction (raw : Option Json) : Except Fault FilterFunction := do
  match raw with
  | some (.string name) =>
      match readName standardFunctions name with
      | some function => .ok (.standard function)
      | none => throwV2 (text "unknown standard filter function " ++ name)
  | _ =>
      let function ← identity raw (text "call.function")
      let key := filterFunctionIdentityKey function
      if !supportsExtensionFilterFunction function then
        throwV2 (text "unknown extension function " ++ key)
      else if !(options.extensionFunctions.getD []).any
          fun value => filterFunctionIdentityKey value == key then
        throwV2 (text "extension function " ++ key ++ text " was not advertised")
      else .ok (.extension function)

/-- The checks on a call once its arguments are read. -/
def callOptions (object : Json) (function : FilterFunction) (args : List FilterExpression) :
    Except Fault FilterExpression := do
  match function with
  | .standard function => validateStandardCall function args
  | .extension _ => pure ()
  let options ←
    match property object "options" with
    | none => pure none
    | some value => some <$> expectObject (some value) (text "call.options")
  match function, options with
  | .standard _, some _ => throwV2 (text "standard functions forbid options")
  | _, some options =>
      if options.ownKeys ≠ [] then throwV2 (text "extension function options are unsupported")
      else .ok (.call function args (some options))
  | _, none => .ok (.call function args none)

/-- A runtime filter up to its input, which is read last. -/
def runtimeFilterHead (object : Json) (root : Bool) :
    Except Fault (FilterExpression → FilterExpression) := do
  expectKeys object (keys ["node", "algorithm", "input", "artifact_ref", "null_handling"]) []
    (text "runtime_filter")
  refuse (!root) (text "runtime_filter is allowed only at a predicate root")
  let algorithm ← identity (property object "algorithm") (text "runtime_filter.algorithm")
  let key := filterFunctionIdentityKey algorithm
  refuse (!knownRuntimeAlgorithms.contains key) (text "unknown runtime filter " ++ key)
  let artifact ← payload batch (text "artifact") (property object "artifact_ref")
  validateArrowExtensions artifact.field
  let nullHandling ←
    expectString (property object "null_handling") (text "runtime_filter.null_handling")
  refuse (nullHandling ≠ text "pass" ∧ nullHandling ≠ text "reject")
    (text "invalid runtime null handling")
  let supported := (options.runtimeAlgorithms.getD []).any
    fun value => filterFunctionIdentityKey value == key
  refuse supported (text "runtime algorithm was advertised without an evaluator")
  .ok fun input => .runtimeFilter algorithm input artifact.ref artifact.field artifact.value
    (if nullHandling = text "pass" then .pass else .reject) supported

section Nodes

/-! The nodes with children, given how a child is read. -/

variable (child : Option Json → Reading FilterExpression) (object : Json)

/-- The field of a struct-typed expression that an object names by index and name. -/
def structField (parent : FilterExpression) : Except Fault (Nat × Field) := do
  match expressionType parent with
  | some (.struct children) =>
      let fieldIndex ← expectUint (property object "field_index") (text "field_ref.field_index")
      let fieldName ← expectString (property object "field_name") (text "field_ref.field_name")
      match children[fieldIndex]? with
      | some field =>
          if field.name ≠ fieldName then throwV2 (text "field_ref name/index mismatch")
          else .ok (fieldIndex, field)
      | none => throwV2 (text "field_ref name/index mismatch")
  | _ => throwV2 (text "field_ref input must be STRUCT")

def fieldRef : Reading FilterExpression := do
  expectKeys object (keys ["node", "expression", "field_index", "field_name"]) [] (text "field_ref")
  let expression ← child (property object "expression")
  let (fieldIndex, field) ← structField object expression
  pure (.fieldRef expression fieldIndex field.name field.type)

/-- An operator of an enumeration. -/
def readOperator {α : Type} (names : List (Text × α)) (location unknown : String) :
    Except Fault α := do
  let op ← expectString (property object "op") (text location)
  match readName names op with
  | some op => .ok op
  | none => throwV2 (text unknown ++ op)

def comparison : Reading FilterExpression := do
  expectKeys object (keys ["node", "op", "left", "right"]) [] (text "comparison")
  let op ← readOperator object comparisonOps "comparison.op" "unknown comparison operator "
  let left ← child (property object "left")
  let right ← child (property object "right")
  pure (.comparison op left right)

/-- An `and` or an `or` node. -/
def junction (node : Text) (build : List FilterExpression → FilterExpression) :
    Reading FilterExpression := do
  expectKeys object (keys ["node", "children"]) [] node
  let elements ← expectArray (property object "children") (node ++ text ".children")
  let children ← elements.mapM fun element => child (some element)
  if children.length < 2 || children.any (!isBooleanExpression ·) then
    throwV2 (node ++ text " requires at least two Boolean children")
  else pure (build children)

def negation : Reading FilterExpression := do
  expectKeys object (keys ["node", "expression"]) [] (text "not")
  let expression ← child (property object "expression")
  if !isBooleanExpression expression then throwV2 (text "not input must be Boolean")
  else pure (.not expression)

def isNull : Reading FilterExpression := do
  expectKeys object (keys ["node", "expression", "negated"]) [] (text "is_null")
  let expression ← child (property object "expression")
  let negated ← expectBoolean (property object "negated") (text "is_null.negated")
  pure (.isNull expression negated)

def inSet : Reading FilterExpression := do
  expectKeys object (keys ["node", "expression", "set", "negated"]) [] (text "in")
  let setObject ← expectObject (property object "set") (text "in.set")
  let set ← filterSet batch options setObject
  let expression ← child (property object "expression")
  let negated ← expectBoolean (property object "negated") (text "in.negated")
  pure (.inSet expression set negated)

/-- The type payload of a cast. -/
def castTarget : Except Fault Payload := do
  let read ← payload batch (text "type") (property object "type_ref")
  validateArrowExtensions read.field
  match read.value with
  | .null => .ok read
  | _ => throwV2 (text "cast type payload must be NULL")

def cast : Reading FilterExpression := do
  expectKeys object (keys ["node", "expression", "type_ref"]) [] (text "cast")
  let target ← castTarget batch object
  let expression ← child (property object "expression")
  pure (.cast expression target.ref target.field)

def arithmetic : Reading FilterExpression := do
  expectKeys object (keys ["node", "op", "left", "right"]) [] (text "arithmetic")
  let op ← readOperator object arithmeticOps "arithmetic.op" "unknown arithmetic operator "
  let left ← child (property object "left")
  let right ← child (property object "right")
  pure (.arithmetic op left right)

def negate : Reading FilterExpression := do
  expectKeys object (keys ["node", "expression"]) [] (text "negate")
  let expression ← child (property object "expression")
  pure (.negate expression)

/-- The arguments of a call, of which there are two. -/
def callArguments : Except Fault (List Json) := do
  let args ← expectArray (property object "arguments") (text "call.arguments")
  if maxArguments < args.length then throwV2 (text "call argument limit exceeded")
  else if args.length ≠ 2 then
    throwV2 (text "registered v2 filter functions require exactly two arguments")
  else .ok args

def call : Reading FilterExpression := do
  expectKeys object (keys ["node", "function", "arguments"]) (keys ["options"]) (text "call")
  let function ← callFunction options (property object "function")
  let args ← callArguments object
  let parsedArgs ← args.mapM fun arg => child (some arg)
  callOptions object function parsedArgs

def runtimeFilter (root : Bool) : Reading FilterExpression := do
  let build ← runtimeFilterHead batch options object root
  let input ← child (property object "input")
  pure (build input)

def compound (node : Text) (root : Bool) : Reading FilterExpression :=
  if node = text "field_ref" then fieldRef child object
  else if node = text "comparison" then comparison child object
  else if node = text "and" then junction child object node .and
  else if node = text "or" then junction child object node .or
  else if node = text "not" then negation child object
  else if node = text "is_null" then isNull child object
  else if node = text "in" then inSet batch options child object
  else if node = text "cast" then cast batch child object
  else if node = text "arithmetic" then arithmetic child object
  else if node = text "negate" then negate child object
  else if node = text "call" then call options child object
  else if node = text "runtime_filter" then runtimeFilter batch options child object root
  else throwV2 (text "unknown expression node " ++ node)

end Nodes

/-- Read an expression with `levels` levels of nesting left below the depth limit. -/
def expression : Nat → Json → Bool → Reading FilterExpression
  | 0, _, _ => throwV2 (text "expression depth limit exceeded")
  | levels + 1, object, root => do
      countNode
      let child (value : Option Json) : Reading FilterExpression := do
        let object ← expectObject value (text "child expression")
        expression levels object false
      match property object "node" with
      | some (.string node) =>
          if node = text "column_ref" then columnRef options object
          else if node = text "literal" then literal batch object
          else compound batch options child object node root
      | some value => throwV2 (text "unknown expression node " ++ jsonText value)
      | none => throwV2 (text "unknown expression node undefined")

end FilterParser

/-! ## Documents -/

structure FilterParser where
  batch : Batch
  options : DeserializeFilterOptions
  context : EvaluationContext
  document : Json

def validateContextCapability (options : DeserializeFilterOptions) (context : EvaluationContext) :
    Except Fault Unit :=
  if context.profile = noEvaluationContext then .ok ()
  else
    let matching := (options.evaluationContexts.getD []).filter (·.1 == context.profile)
    if matching.isEmpty then
      throwV2 (text "evaluation context " ++ context.profile ++ text " was not advertised")
    else
      match context.providerFingerprint with
      | none => .ok ()
      | some fingerprint =>
          if matching.any (·.2 == some fingerprint) then .ok ()
          else throwV2 (text "evaluation context fingerprint was not advertised")

def validateTypePayload (batch : Batch) (field : Field) (index : Nat) : Except Fault Unit :=
  if (text "type_").isPrefixOf field.name then do
    match ← valueAt batch index with
    | .null => .ok ()
    | _ => throwV2 (field.name ++ text " must contain NULL")
  else .ok ()

/-- The canonical spelling and the NULL type payloads, field by field after the first. -/
def validatePayloadNames (batch : Batch) : List (Field × Nat) → Except Fault Unit
  | [] => .ok ()
  | (field, index) :: rest => do
      refuse (!isPayloadName field.name) (text "noncanonical payload name " ++ field.name)
      validateTypePayload batch field index
      validatePayloadNames batch rest

/-- `first field must be filter_spec: utf8 not null`. -/
def isFilterSpecField (field : Option Field) : Bool :=
  field.any fun field => field.name == text "filter_spec" && !field.nullable && field.type.isUtf8

/-- The document text of a filter batch. -/
def filterSpec (batch : Batch) : Except Fault Text := do
  match ← valueAt batch 0 with
  | .string raw =>
      refuse (maxJsonBytes < utf8Length raw)
        (text "filter_spec must be UTF-8 JSON no larger than 1 MiB")
      .ok raw
  | _ => throwV2 (text "filter_spec must be UTF-8 JSON no larger than 1 MiB")

/-- `new FilterParser(batch, options)`. -/
def FilterParser.construct (batch : Batch) (options : DeserializeFilterOptions) :
    Except Fault FilterParser := do
  refuse (batch.numRows ≠ 1) (text "filter batch must contain exactly one row")
  refuse (!isFilterSpecField batch.schema.fields[0]?)
    (text "first field must be filter_spec: utf8 not null")
  refuse (¬(batch.schema.fields.map (·.name)).Nodup)
    (text "filter payload names must be unique")
  validatePayloadNames batch (batch.schema.fields.zipIdx.drop 1)
  let context ← parseContext batch.schema
  validateContextCapability options context
  let raw ← filterSpec batch
  let value ← parseStrictJson raw
  let document ← expectObject (some value) (text "filter document")
  .ok ⟨batch, options, context, document⟩

def predicateId (value : Option Json) (location : Text) : Except Fault Text := do
  let id ← expectString value (location ++ text ".id")
  if maxIdBytes < utf8Length id then throwV2 (location ++ text ".id is too long")
  else .ok id

/-- The location of an entry in an error. -/
def entryLocation (member : String) (index : Nat) : Text :=
  text member ++ text "[" ++ Number.decimal index ++ text "]"

def predicateMode (object : Json) (location : Text) :
    Except Fault (PredicateMode × PredicateSource) := do
  let mode ← expectString (property object "mode") (location ++ text ".mode")
  let source ← expectString (property object "source") (location ++ text ".source")
  match readName modes mode, readName sources source with
  | some mode, some source => .ok (mode, source)
  | _, _ => throwV2 (location ++ text " has unknown mode or source")

/-- `value === string`. -/
def isString (value : Option Json) (string : Text) : Bool :=
  match value with
  | some (.string given) => given == string
  | _ => false

namespace FilterParser

def header (parser : FilterParser) (kind member : String) : Except Fault (List Json) := do
  let document := parser.document
  expectKeys document (keys ["encoding", "semantics", "kind", member]) [] (text "filter document")
  refuse (!isString (property document "encoding") filterEncoding)
    (text "document encoding must be vgi.filters.v2")
  refuse (!isString (property document "semantics") duckdbStandardV1)
    (text "unsupported filter semantics")
  refuse (!isString (property document "kind") (text kind))
    (text "expected a " ++ text kind ++ text " document")
  expectArray (property document member) (text member)

def isRuntimeFilter : FilterExpression → Bool
  | .runtimeFilter _ _ _ _ _ _ _ => true
  | _ => false

/-- The checks on a predicate's root. -/
def validateRoot (context : EvaluationContext) (mode : PredicateMode)
    (root : FilterExpression) : Except Fault Unit := do
  refuse (context.profile = noEvaluationContext ∧ requiresSessionContext root)
    (text "context-dependent expression requires vgi.duckdb.session.v1")
  refuse (isRuntimeFilter root ∧ mode ≠ .advisory)
    (text "runtime_filter predicates must be advisory")
  refuse (!isRuntimeFilter root && !isBooleanExpression root)
    (text "predicate root must resolve to BOOLEAN")

def predicate (parser : FilterParser) (object : Json) (location : Text) (update : Bool) :
    Reading FilterPredicate := do
  expectKeys object ((if update then [text "operation"] else []) ++
    keys ["id", "revision", "mode", "source", "expression"]) [] location
  let (mode, source) ← predicateMode object location
  let root ← expectObject (property object "expression") (location ++ text ".expression")
  let expression ← expression parser.batch parser.options maxDepth root true
  validateRoot parser.context mode expression
  let id ← predicateId (property object "id") location
  let revision ← expectUint (property object "revision") (location ++ text ".revision")
  pure ⟨id, revision, mode, source, expression⟩

def snapshotPredicates (parser : FilterParser) : List Json → Nat → Reading (List FilterPredicate)
  | [], _ => pure []
  | entry :: rest, index => do
      let location := entryLocation "predicates" index
      let object ← expectObject (some entry) location
      let first ← parser.predicate object location false
      let others ← snapshotPredicates parser rest (index + 1)
      pure (first :: others)

/-- The revision and the id of each predicate of a snapshot, in order. -/
def validateSnapshot : List FilterPredicate → List Text → Except Fault Unit
  | [], _ => .ok ()
  | predicate :: rest, ids =>
      if predicate.revision ≠ 0 then throwV2 (text "snapshot revisions must be zero")
      else if ids.contains predicate.id then
        throwV2 (text "duplicate predicate id " ++ predicate.id)
      else validateSnapshot rest (predicate.id :: ids)

def snapshot (parser : FilterParser) : Except Fault PushdownFilters := do
  let entries ← parser.header "snapshot" "predicates"
  refuse (maxPredicates < entries.length) (text "snapshot predicate limit exceeded")
  let (predicates, _) ← parser.snapshotPredicates entries 0 0
  validateSnapshot predicates []
  .ok {
    predicates := predicates
    evaluationContext := parser.context
    options := parser.options
    revisions := .ofEntries (predicates.map fun predicate => (predicate.id, 0))
    requiredIds := (predicates.filter (·.mode == .required)).map (·.id) }

/-- One parsed update; no predicate is a removal. -/
structure Update where
  id : Text
  revision : Nat
  predicate : Option FilterPredicate

inductive Operation where
  | upsert | remove
  deriving DecidableEq

/-- An update's structural checks, made whether or not it is stale. -/
structure UpdateHeader where
  object : Json
  operation : Operation
  id : Text
  revision : Nat

/-- The checks on an upsert's own members. -/
def upsertHeader (object : Json) (location : Text) : Except Fault Unit := do
  let (mode, _) ← predicateMode object location
  let _ ← expectObject (property object "expression") (location ++ text ".expression")
  refuse (mode ≠ .advisory) (text "delta upserts must be advisory")

def updateHeader (prior : PushdownFilters) (seen : List Text) (entry : Json) (location : Text) :
    Except Fault UpdateHeader := do
  let object ← expectObject (some entry) location
  let operation ← expectString (property object "operation") (location ++ text ".operation")
  let common :=
    if operation = text "upsert" then
      keys ["operation", "id", "revision", "mode", "source", "expression"]
    else keys ["operation", "id", "revision"]
  expectKeys object common [] location
  refuse (operation ≠ text "upsert" ∧ operation ≠ text "remove")
    (location ++ text " has invalid operation")
  let id ← predicateId (property object "id") location
  let revision ← expectUint (property object "revision") (location ++ text ".revision")
  refuse (id ∈ seen) (text "duplicate delta predicate id " ++ id)
  refuse (id ∈ prior.requiredIds) (text "delta targets required predicate " ++ id)
  if operation = text "upsert" then
    upsertHeader object location
    .ok ⟨object, .upsert, id, revision⟩
  else .ok ⟨object, .remove, id, revision⟩

/-- `revision <= (revisions.get(id) ?? -1)`. -/
def isStale (revisions : OrderedMap Text Nat) (id : Text) (revision : Nat) : Bool :=
  match revisions.get? id with
  | some current => decide (revision ≤ current)
  | none => false

/-- The predicate an update installs; a removal installs none. -/
def readOperation (parser : FilterParser) (head : UpdateHeader) (location : Text) :
    Reading (Option FilterPredicate) :=
  match head.operation with
  | .upsert => do
      let predicate ← parser.predicate head.object location true
      pure (some predicate)
  | .remove => pure none

/-- The fresh updates of a delta, in order. A stale update is checked only
structurally: its expression is not read. -/
def readUpdates (parser : FilterParser) (prior : PushdownFilters) :
    List Json → Nat → List Text → Reading (List Update)
  | [], _, _ => pure []
  | entry :: rest, index, seen => do
      let location := entryLocation "updates" index
      let head ← updateHeader prior seen entry location
      if isStale prior.revisions head.id head.revision then
        readUpdates parser prior rest (index + 1) (head.id :: seen)
      else
        let predicate ← parser.readOperation head location
        let others ← readUpdates parser prior rest (index + 1) (head.id :: seen)
        pure (⟨head.id, head.revision, predicate⟩ :: others)

def applyToLive (live : OrderedMap Text FilterPredicate) (update : Update) :
    OrderedMap Text FilterPredicate :=
  match update.predicate with
  | some predicate => live.set update.id predicate
  | none => live.delete update.id

def applyRevision (revisions : OrderedMap Text Nat) (update : Update) : OrderedMap Text Nat :=
  revisions.set update.id update.revision

/-- The filters once the fresh updates of a delta are applied. -/
def applyUpdates (parser : FilterParser) (prior : PushdownFilters) (parsed : List Update) :
    PushdownFilters :=
  let live := OrderedMap.ofEntries (prior.predicates.map fun predicate => (predicate.id, predicate))
  { predicates := (parsed.foldl applyToLive live).values
    evaluationContext := parser.context
    options := prior.options
    revisions := parsed.foldl applyRevision prior.revisions
    requiredIds := prior.requiredIds }

def delta (parser : FilterParser) (prior : PushdownFilters) : Except Fault PushdownFilters := do
  -- The contexts are compared as JSON texts, which are equal exactly when the records are.
  refuse (parser.context ≠ prior.evaluationContext)
    (text "evaluation context changed within one scan")
  let entries ← parser.header "delta" "updates"
  let (parsed, _) ← parser.readUpdates prior entries 0 [] 0
  refuse (maxPredicateIds < (prior.revisions.keys ++ parsed.map (·.id)).dedup.length)
    (text "delta predicate-id limit exceeded")
  .ok (parser.applyUpdates prior parsed)

end FilterParser

def deserializeFilters (batch : Batch) (options : DeserializeFilterOptions) :
    Except Fault PushdownFilters := do
  let parser ← FilterParser.construct batch options
  parser.snapshot

def applyFilterDelta (prior : PushdownFilters) (batch : Batch) : Except Fault PushdownFilters := do
  let parser ← FilterParser.construct batch prior.options
  parser.delta prior

/-- `PushdownFilters.applyDelta`. -/
def PushdownFilters.applyDelta (filters : PushdownFilters) (batch : Batch) :
    Except Fault PushdownFilters :=
  applyFilterDelta filters batch

end VgiWorker.FilterPushdown
