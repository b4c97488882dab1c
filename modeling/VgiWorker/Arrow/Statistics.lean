import VgiWorker.Arrow.Codec
import VgiWorker.Data.KeyCodes

/-!
# Column statistics

`buildStatisticsBatch` of both Arrow backends. The bounds of every column travel
in one sparse union a bound: its children are the distinct types by key, and an
int8 code a row names the child that holds the row's value.
-/

set_option autoImplicit false

namespace VgiWorker.Arrow

open VgiWorker.Js

/-- A `bigint | number`. -/
inductive Count where
  | bigint (value : Int)
  | number (value : Number)

structure ColumnStatistics where
  columnName : Text
  arrowType : DataType
  min : Rich
  max : Rich
  hasNull : Bool
  hasNotNull : Bool
  distinctCount : Option Count
  containsUnicode : Option Bool
  maxStringLength : Option Count

inductive StatisticsFault where
  | codec (error : CodecError)
  | store (message : Text)
  /-- `BigInt` of a number that is not an integer. -/
  | rangeError

/-- How an Arrow library keeps one canonical value in a column of a type and gives it back:
`writeCanonicalColumn` and `readCanonicalValue`. -/
structure CellStore where
  keep : DataType → Value → Except Text Value
  null : ∀ type, keep type .null = .ok .null
  bool : ∀ value, keep .bool (.bool value) = .ok (.bool value)
  utf8 : ∀ value, keep .utf8 (.string value) = .ok (.string (dropBom (toWellFormed value)))
  int64 : ∀ signed value, (intRange 64 signed).1 ≤ value → value ≤ (intRange 64 signed).2 →
    keep (.int 64 signed) (.bigint value) = .ok (.bigint value)

/-! ## Type keys -/

namespace DataType

def unit? : DataType → Option Int
  | .date unit => some unit.code
  | .time unit _ | .timestamp unit _ | .duration unit => some unit.code
  | .interval unit => some unit.code
  | _ => none

def bitWidth? : DataType → Option Int
  | .int bitWidth _ | .decimal bitWidth _ _ | .time _ bitWidth => some bitWidth
  | _ => none

def precision? : DataType → Option Int
  | .float precision => some precision.code
  | .decimal _ precision _ => some precision
  | _ => none

def scale? : DataType → Option Int
  | .decimal _ _ scale => some scale
  | _ => none

def byteWidth? : DataType → Option Int
  | .fixedSizeBinary byteWidth => some byteWidth
  | _ => none

end DataType

/-- `typeKey` with the type's `byteWidth` property. -/
def typeKeyOf (byteWidth? : DataType → Option Int) (type : DataType) : Text :=
  let part (property : Option Int) : Text := (property.map Number.decimalInt).getD []
  joinText (text ":") [Number.decimalInt type.typeId, part type.unit?, part type.bitWidth?,
    part type.precision?, part type.scale?, part (byteWidth? type)]

/-! ## Batches -/

/-- `typeIds` are the codes of the rows, and `childIds` those of the children. -/
structure UnionColumn where
  typeIds : List Int
  childIds : List Int
  children : List (DataType × Column)

/-- What an `Int8Array` holds after it is given the code. -/
def int8 (code : Nat) : Int :=
  ((code : Int) + 128) % 256 - 128

namespace UnionColumn

def childFields (children : List (DataType × Column)) : List Field :=
  children.zipIdx.map fun child => ⟨Number.decimal child.2, child.1.1, true, OrderedMap.empty⟩

def type (column : UnionColumn) : DataType :=
  .union .sparse column.childIds (childFields column.children)

/-- The value of a row with the type of the child that its code names. -/
def at? (column : UnionColumn) (row : Nat) : Option (DataType × Value) := do
  let code ← column.typeIds[row]?
  let position ← column.childIds.idxOf? code
  let child ← column.children[position]?
  some (child.1, readCanonicalValue child.2 row)

end UnionColumn

structure StatisticsBatch where
  schema : Schema
  columnName : Column
  min : UnionColumn
  max : UnionColumn
  hasNull : Column
  hasNotNull : Column
  distinctCount : Column
  containsUnicode : Column
  maxStringLength : Column

/-- The eight columns; the backends differ in whether the two flags are nullable, and in an empty
batch also the name. -/
def statisticsSchema (nameNullable flagsNullable : Bool) (unionType : DataType) : Schema where
  fields :=
    [⟨text "column_name", .utf8, nameNullable, .empty⟩, ⟨text "min", unionType, true, .empty⟩,
      ⟨text "max", unionType, true, .empty⟩, ⟨text "has_null", .bool, flagsNullable, .empty⟩,
      ⟨text "has_not_null", .bool, flagsNullable, .empty⟩,
      ⟨text "distinct_count", .int 64 true, true, .empty⟩,
      ⟨text "contains_unicode", .bool, true, .empty⟩,
      ⟨text "max_string_length", .int 64 false, true, .empty⟩]
  metadata := .empty

/-! ## Columns -/

section

variable (dateText : Number → Text) (store : CellStore)

def toCanonical (type : DataType) (value : Rich) : Except StatisticsFault Value :=
  (richToCanonical dateText type value).mapError .codec

def keepCell (type : DataType) (value : Value) : Except StatisticsFault Value :=
  (store.keep type value).mapError .store

/-- A column from rich values, by the codec and then the canonical writer. -/
def buildTypedColumn (values : List Rich) (type : DataType) : Except StatisticsFault Column := do
  let canonical ← values.mapM (toCanonical dateText type)
  canonical.mapM (keepCell store type)

def toBigInt : Option Count → Except StatisticsFault Rich
  | none => .ok .null
  | some (.bigint value) => .ok (.bigint value)
  | some (.number value) =>
      match value.toInt? with
      | some integer => .ok (.bigint integer)
      | none => .error .rangeError

/-- The batch around the two bounds. -/
def assemble (flagsNullable : Bool) (stats : List ColumnStatistics) (min max : UnionColumn) :
    Except StatisticsFault StatisticsBatch := do
  let distinctCounts ← stats.mapM fun column => toBigInt column.distinctCount
  let maxStringLengths ← stats.mapM fun column => toBigInt column.maxStringLength
  let columnName ← buildTypedColumn dateText store (stats.map (.string ·.columnName)) .utf8
  let hasNull ← buildTypedColumn dateText store (stats.map (.bool ·.hasNull)) .bool
  let hasNotNull ← buildTypedColumn dateText store (stats.map (.bool ·.hasNotNull)) .bool
  let distinctCount ← buildTypedColumn dateText store distinctCounts (.int 64 true)
  let containsUnicode ← buildTypedColumn dateText store
    (stats.map fun column => (column.containsUnicode.map Rich.bool).getD .null) .bool
  let maxStringLength ← buildTypedColumn dateText store maxStringLengths (.int 64 false)
  .ok
    { schema := statisticsSchema false flagsNullable min.type
      columnName, min, max, hasNull, hasNotNull, distinctCount, containsUnicode, maxStringLength }

/-- The batch of an empty list: no rows, and one child of the union. -/
def emptyStatistics (nameNullable flagsNullable : Bool) (child : DataType) : StatisticsBatch :=
  let bounds : UnionColumn := { typeIds := [], childIds := [0], children := [(child, [])] }
  { schema := statisticsSchema nameNullable flagsNullable bounds.type
    columnName := [], min := bounds, max := bounds, hasNull := [], hasNotNull := []
    distinctCount := [], containsUnicode := [], maxStringLength := [] }

/-- `buildStatisticsBatch` over what the backends do differently. -/
def buildStatisticsBatchBy (typeKey : DataType → Text)
    (buildUnionColumn :
      List Rich → List Nat → List DataType → Except StatisticsFault UnionColumn)
    (flagsNullable : Bool) (emptyBatch : StatisticsBatch) (stats : List ColumnStatistics) :
    Except StatisticsFault StatisticsBatch :=
  if stats.isEmpty then .ok emptyBatch
  else do
    let (typeOrder, codes) := KeyCodes.assign typeKey [] (stats.map (·.arrowType))
    let min ← buildUnionColumn (stats.map (·.min)) codes typeOrder
    let max ← buildUnionColumn (stats.map (·.max)) codes typeOrder
    assemble dateText store flagsNullable stats min max

end

/-! ## The two backends -/

namespace ArrowJs

def typeKey (type : DataType) : Text :=
  typeKeyOf DataType.byteWidth? type

def buildTypedColumnData (dateText : Number → Text) (store : CellStore) (values : List Rich) :
    DataType → Except StatisticsFault Column
  | .null => .ok (values.map fun _ => .null)
  | type => buildTypedColumn dateText store values type

/-- Every child holds the values of its own rows and null at the others. -/
def buildUnionColumn (dateText : Number → Text) (store : CellStore) (values : List Rich)
    (codes : List Nat) (typeOrder : List DataType) : Except StatisticsFault UnionColumn := do
  let children ← typeOrder.zipIdx.mapM fun child => do
    let own := (values.zip codes).map fun row => if row.2 = child.2 then row.1 else .null
    let column ← buildTypedColumnData dateText store own child.1
    .ok (child.1, column)
  .ok
    { typeIds := codes.map int8
      childIds := (List.range typeOrder.length).map Int.ofNat
      children }

def emptyBatch : StatisticsBatch :=
  emptyStatistics false false .null

def buildStatisticsBatch (dateText : Number → Text) (store : CellStore)
    (stats : List ColumnStatistics) : Except StatisticsFault StatisticsBatch :=
  buildStatisticsBatchBy dateText store typeKey (buildUnionColumn dateText store) false emptyBatch stats

end ArrowJs

namespace Flechette

/-- The library's types call the width of a fixed-size binary `stride`. -/
def typeKey (type : DataType) : Text :=
  typeKeyOf (fun _ => none) type

/-- The value of a row, prepared for the child that its code names; the union builder gives the
other children null there. -/
def buildUnionColumn (dateText : Number → Text) (store : CellStore) (values : List Rich)
    (codes : List Nat) (typeOrder : List DataType) : Except StatisticsFault UnionColumn := do
  let prepared ← (values.zip codes).mapM fun row =>
    if isRichNull row.1 then .ok .null
    else toCanonical dateText (typeOrder[row.2]?.getD .null) row.1
  let children ← typeOrder.zipIdx.mapM fun child => do
    let own := (prepared.zip codes).map fun row => if row.2 = child.2 then row.1 else .null
    let column ← own.mapM (keepCell store child.1)
    .ok (child.1, column)
  .ok
    { typeIds := codes.map int8
      childIds := (List.range typeOrder.length).map Int.ofNat
      children }

/-- `emptyBatch` of the schema, whose columns are built anew and so are nullable. -/
def emptyBatch : StatisticsBatch :=
  emptyStatistics true true (.int 8 true)

def buildStatisticsBatch (dateText : Number → Text) (store : CellStore)
    (stats : List ColumnStatistics) : Except StatisticsFault StatisticsBatch :=
  buildStatisticsBatchBy dateText store typeKey (buildUnionColumn dateText store) true emptyBatch stats

end Flechette

end VgiWorker.Arrow
