import VgiWorker.Arrow.Value
import VgiWorker.FilterPushdown.Deserialize

/-!
# Filter evaluation

Three-valued evaluation of an expression on one row, and of a filter set on a
batch. A null result is the canonical null.
-/

set_option autoImplicit false

namespace VgiWorker.FilterPushdown

open VgiWorker.Js VgiWorker.Arrow

/-- The cells of the column an expression names, resolved in the emitted batch. -/
def resolveColumn (batch : Batch) (columnName : Text) : Except Fault (Option Column) :=
  match batch.schema.fields.findIdx? (·.name == columnName) with
  | some index => .ok (batch.getChildAt index)
  | none => throwV2 (text "filter column " ++ columnName ++ text " is unavailable in emitted batch")

/-! ## Comparison -/

/-- `Object.entries`. -/
def objectEntries : Value → List (Text × Value)
  | .object entries => entries
  | .array elements => elements.zipIdx.map fun entry => (Number.decimal entry.2, entry.1)
  | .bytes bytes =>
      bytes.zipIdx.map fun entry => (Number.decimal entry.2, .number (.ofNat entry.1.toNat))
  | _ => []

mutual

def deepEqual : Value → Value → Bool
  | .number left, .number right => left.strictEq right || (left.isNaN && right.isNaN)
  | .bytes left, .bytes right => left == right
  | .array left, .array right => deepEqualElements left right
  | .object left, right =>
      right.isObject && left.length == (objectEntries right).length &&
        deepEqualEntries left (objectEntries right)
  | .array left, right =>
      right.isObject && left.length == (objectEntries right).length &&
        deepEqualIndexed left 0 (objectEntries right)
  | .bytes left, right =>
      -- The entries of a byte array are numbers; the other side is an array or an object.
      right.isObject && left.length == (objectEntries right).length &&
        left.zipIdx.all fun entry =>
          match lookupEntry (objectEntries right) (Number.decimal entry.2) with
          | some (.number value) => value.strictEq (.ofNat entry.1.toNat)
          | _ => false
  | left, right => left.strictEq right

def deepEqualElements : List Value → List Value → Bool
  | [], [] => true
  | left :: leftRest, right :: rightRest =>
      deepEqual left right && deepEqualElements leftRest rightRest
  | _, _ => false

def deepEqualEntries : List (Text × Value) → List (Text × Value) → Bool
  | [], _ => true
  | (key, value) :: rest, right =>
      (match lookupEntry right key with
        | some other => deepEqual value other
        | none => false) && deepEqualEntries rest right

def deepEqualIndexed : List Value → Nat → List (Text × Value) → Bool
  | [], _, _ => true
  | value :: rest, index, right =>
      (match lookupEntry right (Number.decimal index) with
        | some other => deepEqual value other
        | none => false) && deepEqualIndexed rest (index + 1) right

end

/-- NaN is greater than every other number and equal to itself. -/
def orderedCompare (left right : Value) : Ordering :=
  match left, right with
  | .number leftNumber, .number rightNumber =>
      if leftNumber.isNaN || rightNumber.isNaN then
        if leftNumber.isNaN == rightNumber.isNaN then .eq
        else if leftNumber.isNaN then .gt else .lt
      else if deepEqual left right then .eq
      else if left.less right then .lt else .gt
  | _, _ =>
      if deepEqual left right then .eq
      else if left.less right then .lt else .gt

def isNullValue : Value → Bool
  | .null => true
  | _ => false

def compare (left right : Value) (op : ComparisonOp) : Value :=
  let oneNull := isNullValue left || isNullValue right
  let bothNull := isNullValue left && isNullValue right
  match op with
  | .distinctFrom => .bool (if oneNull then !bothNull else !deepEqual left right)
  | .notDistinctFrom => .bool (if oneNull then bothNull else deepEqual left right)
  | op =>
      if oneNull then .null
      else
        let order := orderedCompare left right
        .bool <| match op with
          | .eq => order == .eq
          | .ne => order != .eq
          | .lt => order == .lt
          | .le => order != .gt
          | .gt => order == .gt
          | _ => order != .lt

def isFalseValue : Value → Bool
  | .bool false => true
  | _ => false

def isTrueValue : Value → Bool
  | .bool true => true
  | _ => false

def andKleene (values : List Value) : Value :=
  if values.any isFalseValue then .bool false
  else if values.any isNullValue then .null else .bool true

def orKleene (values : List Value) : Value :=
  if values.any isTrueValue then .bool true
  else if values.any isNullValue then .null else .bool false

/-! ## Casts and arithmetic -/

def integerBounds : DataType → Option (Int × Int)
  | .int width true => some (-(2 ^ (width - 1)), 2 ^ (width - 1) - 1)
  | .int width false => some (0, 2 ^ width - 1)
  | _ => none

/-- The integer a cast to an integer type reads off a value. -/
def castInteger? : Value → Option Int
  | .bigint value => some value
  | .number value => value.trunc.toInt?
  | value => Number.bigIntOfText? value.toText

def lowerAscii (string : Text) : Text :=
  string.map fun unit => if 65 ≤ unit.toNat ∧ unit.toNat ≤ 90 then unit + 32 else unit

def castValue (value : Value) (type : DataType) : Except Fault Value :=
  match value with
  | .null => .ok .null
  | value =>
    if type.isUtf8 then .ok (.string value.toText)
    else if type.isBool then
      match value with
      | .bool value => .ok (.bool value)
      | value =>
          if value.strictEq (.number .zero) || value.strictEq (.bigint 0) ||
              value.strictEq (.string (text "false")) then .ok (.bool false)
          else if value.strictEq (.number (.ofNat 1)) || value.strictEq (.bigint 1) ||
              value.strictEq (.string (text "true")) then .ok (.bool true)
          else throwV2 (text "cannot cast " ++ value.toText ++ text " to BOOLEAN")
    else if type.isFloat then
      let result := value.toNumber
      if result.isNaN && lowerAscii value.toText != text "nan" then
        throwV2 (text "cannot cast " ++ value.toText ++ text " to floating point")
      else .ok (.number result)
    else
      match integerBounds type with
      | some (least, greatest) =>
          match castInteger? value with
          | some result =>
              if result < least ∨ greatest < result then throwV2 (text "integer cast overflow")
              else
                match type with
                | .int 64 _ => .ok (.bigint result)
                | _ => .ok (.number (.ofInt result))
          | none => throwV2 (text "cannot cast " ++ value.toText ++ text " to integer")
      | none =>
          throwV2 (text "no vgi.duckdb.standard.v1 cast evaluator for Arrow type " ++
            Number.decimalInt type.typeId)

def bigintBinary (op : ArithmeticOp) (left right : Int) (context : EvaluationContext) :
    Except Fault Value :=
  if (op = .divide ∨ op = .modulo) ∧ right = 0 then throwV2 (text "division by zero")
  else
    match op with
    | .add => .ok (.bigint (left + right))
    | .subtract => .ok (.bigint (left - right))
    | .multiply => .ok (.bigint (left * right))
    | .divide =>
        if context.integerDivision = some true then .ok (.bigint (left.tdiv right))
        else .ok (.number ((Number.ofInt left).div (.ofInt right)))
    | .modulo => .ok (.bigint (left.tmod right))

def isNumeric : Value → Bool
  | .number _ | .bigint _ => true
  | _ => false

def numericBinary (op : ArithmeticOp) (left right : Value) (context : EvaluationContext) :
    Except Fault Value :=
  if isNullValue left || isNullValue right then .ok .null
  else if !isNumeric left || !isNumeric right then
    throwV2 (text "arithmetic operands must be numeric")
  else
    match left, right with
    | .bigint left, .bigint right => bigintBinary op left right context
    | left, right =>
        let a := left.toNumber
        let b := right.toNumber
        if (op = .divide ∨ op = .modulo) ∧ b.strictEq .zero ∧
            context.ieeeFloatingPointOps = some false then
          throwV2 (text "division by zero")
        else
          .ok <| .number <| match op with
            | .add => a.add b
            | .subtract => a.sub b
            | .multiply => a.mul b
            | .divide => a.div b
            | .modulo => a.rem b

/-! ## Geometry bounds -/

structure Bounds where
  minX : Number
  minY : Number
  maxX : Number
  maxY : Number

namespace WkbBoundsReader

/-- A reading step; the state is the bytes that are left. -/
abbrev Reader := StateT Bytes (Except Fault)

def fail {α : Type} (message : String) : Reader α := fun _ => throwV2 (text message)

def take (length : Nat) : Reader Bytes := fun bytes =>
  if bytes.length < length then throwV2 (text "truncated WKB geometry")
  else .ok (bytes.take length, bytes.drop length)

def unsigned (littleEndian : Bool) (bytes : Bytes) : Nat :=
  (if littleEndian then bytes.reverse else bytes).foldl
    (fun value byte => value * 256 + byte.toNat) 0

def uint32 (littleEndian : Bool) : Reader Nat := do
  return unsigned littleEndian (← take 4)

def float64 (littleEndian : Bool) : Reader Number := do
  return Number.ofBits (unsigned littleEndian (← take 8))

def merge : Option Bounds → Option Bounds → Option Bounds
  | none, right => right
  | left, none => left
  | some left, some right => some {
      minX := left.minX.mathMin right.minX
      minY := left.minY.mathMin right.minY
      maxX := left.maxX.mathMax right.maxX
      maxY := left.maxY.mathMax right.maxY }

/-- Run `step` `count` times and merge the bounds it gives. -/
def mergeTimes (step : Reader (Option Bounds)) : Nat → Option Bounds → Reader (Option Bounds)
  | 0, bounds => pure bounds
  | count + 1, bounds => do
      let next ← step
      mergeTimes step count (merge bounds next)

def point (littleEndian : Bool) (dimensions : Nat) : Reader (Option Bounds) := do
  let x ← float64 littleEndian
  let y ← float64 littleEndian
  for _ in List.range (dimensions - 2) do
    let _ ← float64 littleEndian
  if x.isNaN && y.isNaN then return none
  if !x.isFinite || !y.isFinite then fail "WKB coordinate must be finite"
  return some ⟨x, y, x, y⟩

def count (littleEndian : Bool) : Reader Nat := do
  let count ← uint32 littleEndian
  if (← get).length / 4 < count then fail "WKB element count exceeds payload size"
  return count

def points (littleEndian : Bool) (dimensions : Nat) : Reader (Option Bounds) := do
  let length ← count littleEndian
  mergeTimes (point littleEndian dimensions) length none

/-- The type code and the dimensions of an encoded geometry type. -/
def geometryType (encodedType : Nat) : Nat × Nat :=
  let flag (bit : Nat) : Nat := encodedType / 2 ^ bit % 2
  let type := encodedType % 2 ^ 28
  if 3000 ≤ type then (type - 3000, 4)
  else if 2000 ≤ type then (type - 2000, 3)
  else if 1000 ≤ type then (type - 1000, 3)
  else (type, 2 + flag 31 + flag 30)

/-- A geometry takes five bytes or more, so `levels` counts down from the payload's length. -/
def geometry : Nat → Reader (Option Bounds)
  | 0 => fun _ => .error .rangeError
  | levels + 1 => do
      let byteOrder := unsigned true (← take 1)
      if byteOrder ≠ 0 ∧ byteOrder ≠ 1 then fail "invalid WKB byte order"
      let littleEndian := byteOrder == 1
      let encodedType ← uint32 littleEndian
      let (type, dimensions) := geometryType encodedType
      if encodedType / 2 ^ 29 % 2 = 1 then
        let _ ← uint32 littleEndian
      if type = 1 then point littleEndian dimensions
      else if type = 2 then points littleEndian dimensions
      else if type = 3 then
        let rings ← count littleEndian
        mergeTimes (points littleEndian dimensions) rings none
      else if 4 ≤ type ∧ type ≤ 7 then
        let geometries ← count littleEndian
        mergeTimes (geometry levels) geometries none
      else fun _ =>
        throwV2 (text "unsupported WKB geometry type " ++ Number.decimal type)

def read (bytes : Bytes) : Except Fault (Option Bounds) := do
  let (bounds, rest) ← geometry (bytes.length + 1) bytes
  if rest ≠ [] then throwV2 (text "WKB has trailing bytes")
  else .ok bounds

end WkbBoundsReader

def wkbBBox : Value → Except Fault (Option Bounds)
  | .bytes bytes => WkbBoundsReader.read bytes
  | _ => throwV2 (text "spatial extent arguments must be WKB binary values")

/-! ## Expressions -/

def includesText (string pattern : Text) : Bool :=
  string.tails.any fun suffix => pattern.isPrefixOf suffix

def evaluateStandard (function : StandardFilterFunction) (left right : Value) : Value :=
  match function with
  | .startsWith => .bool (right.toText.isPrefixOf left.toText)
  | .endsWith => .bool (right.toText.isSuffixOf left.toText)
  | .contains => .bool (includesText left.toText right.toText)
  | .listContains =>
      match left with
      | .array elements =>
          .bool (elements.any fun element => !isNullValue element && deepEqual element right)
      | _ => .bool false

def evaluateExtension (identity : FunctionIdentity) (args : List Value) : Except Fault Value := do
  if filterFunctionIdentityKey identity ≠ text "duckdb.spatial/intersects_extent@1" then
    throwV2 (text "no evaluator for extension filter function")
  let left ← wkbBBox (args[0]?.getD .null)
  let right ← wkbBBox (args[1]?.getD .null)
  match left, right with
  | some left, some right =>
      .ok (.bool !(left.maxX.less right.minX || right.maxX.less left.minX ||
        left.maxY.less right.minY || right.maxY.less left.minY))
  | _, _ => .ok (.bool false)

def evaluateCall (function : FilterFunction) (args : List Value) : Except Fault Value :=
  if args.any isNullValue then .ok .null
  else
    match function with
    | .standard function =>
        .ok (evaluateStandard function (args[0]?.getD .null) (args[1]?.getD .null))
    | .extension identity => evaluateExtension identity args

def evaluateField (parent : Value) (fieldIndex : Nat) (fieldName : Text) : Value :=
  match parent with
  | .array elements => elements[fieldIndex]?.getD .null
  | .object entries => (lookupEntry entries fieldName).getD .null
  | _ => .null

def evaluateIn (input : Value) (values : List Value) (negated : Bool) : Value :=
  if isNullValue input then .null
  else if values.any fun value => !isNullValue value && deepEqual input value then .bool !negated
  else if values.any isNullValue then .null
  else .bool negated

def evaluateNegate : Value → Value
  | .null => .null
  | .bigint value => .bigint (-value)
  | value => .number value.toNumber.neg

mutual

def evaluateExpression (batch : Batch) (row : Nat) (context : EvaluationContext) :
    FilterExpression → Except Fault Value
  | .columnRef _ columnName _ => do
      match ← resolveColumn batch columnName with
      | some column => .ok (readCanonicalValue column row)
      | none => .ok .null
  | .fieldRef expression fieldIndex fieldName _ => do
      let parent ← evaluateExpression batch row context expression
      .ok (evaluateField parent fieldIndex fieldName)
  | .literal _ _ value => .ok value
  | .comparison op left right => do
      let left ← evaluateExpression batch row context left
      let right ← evaluateExpression batch row context right
      .ok (compare left right op)
  | .and children => do
      let values ← evaluateEach batch row context children
      .ok (andKleene values)
  | .or children => do
      let values ← evaluateEach batch row context children
      .ok (orKleene values)
  | .not expression => do
      match ← evaluateExpression batch row context expression with
      | .null => .ok .null
      | value => .ok (.bool !value.truthy)
  | .isNull expression negated => do
      let value ← evaluateExpression batch row context expression
      .ok (.bool (isNullValue value != negated))
  | .inSet expression set negated => do
      let input ← evaluateExpression batch row context expression
      .ok (evaluateIn input set.values negated)
  | .cast expression _ field => do
      let value ← evaluateExpression batch row context expression
      castValue value field.type
  | .arithmetic op left right => do
      let left ← evaluateExpression batch row context left
      let right ← evaluateExpression batch row context right
      numericBinary op left right context
  | .negate expression => do
      let value ← evaluateExpression batch row context expression
      .ok (evaluateNegate value)
  | .call function args _ => do
      let values ← evaluateEach batch row context args
      evaluateCall function values
  | .runtimeFilter _ _ _ _ _ _ _ =>
      throwV2 (text "runtime-filter artifact evaluator is unavailable")

def evaluateEach (batch : Batch) (row : Nat) (context : EvaluationContext) :
    List FilterExpression → Except Fault (List Value)
  | [] => .ok []
  | expression :: rest => do
      let value ← evaluateExpression batch row context expression
      let values ← evaluateEach batch row context rest
      .ok (value :: values)

end

/-! ## Filter sets -/

/-- A runtime filter whose artifact nobody evaluates. -/
def isSkipped : FilterExpression → Bool
  | .runtimeFilter _ _ _ _ _ _ supported => !supported
  | _ => false

namespace PushdownFilters

/-- The value of one predicate on every row of the batch. -/
def evaluateRows (context : EvaluationContext) (batch : Batch) (expression : FilterExpression) :
    Except Fault (List Value) :=
  (List.range batch.numRows).mapM fun row => evaluateExpression batch row context expression

/-- The mask with the rows a predicate does not make TRUE cleared. -/
def narrowMask (mask : List Bool) (values : List Value) : List Bool :=
  List.zipWith (fun kept value => kept && isTrueValue value) mask values

def evaluateFrom (context : EvaluationContext) (batch : Batch) :
    List FilterPredicate → List Bool → Except Fault (List Bool)
  | [], mask => .ok mask
  | predicate :: rest, mask =>
      if isSkipped predicate.expression then evaluateFrom context batch rest mask
      else
        match evaluateRows context batch predicate.expression with
        | .ok values => evaluateFrom context batch rest (narrowMask mask values)
        | .error fault =>
            if predicate.mode = .advisory then evaluateFrom context batch rest mask
            else .error fault

/-- The rows of a batch that the filters keep. -/
def evaluate (filters : PushdownFilters) (batch : Batch) : Except Fault (List Bool) :=
  evaluateFrom filters.evaluationContext batch filters.predicates
    (List.replicate batch.numRows true)

/-- These filters with their predicates arranged in `order`. -/
def withPredicateOrder (filters : PushdownFilters) (order : List Text) :
    Except Fault PushdownFilters :=
  if filters.predicates.map (·.id) = order then .ok filters
  else
    let byId := OrderedMap.ofEntries
      (filters.predicates.map fun predicate => (predicate.id, predicate))
    if order.length ≠ byId.entries.length ∨ ¬order.Nodup ∨
        ¬order.all byId.has then
      throwV2 (text "recorded predicate order does not match the replayed filter state")
    else
      .ok { filters with predicates := order.filterMap byId.get? }

end PushdownFilters

end VgiWorker.FilterPushdown
