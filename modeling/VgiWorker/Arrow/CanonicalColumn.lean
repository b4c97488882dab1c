import VgiWorker.Arrow.Codec

/-!
# Canonical columns of the arrow-js backend

How canonical values of a type without children are written into a column's
buffers and read back. The types that the backend does not write itself go
through the library's `vectorFromArray`.
-/

set_option autoImplicit false

namespace VgiWorker.Arrow

open VgiWorker.Js

/-! ## Typed arrays -/

/-- What an element of an integer array of this width is after a store. -/
def wrapInt (bitWidth : Nat) (signed : Bool) (value : Int) : Int :=
  if signed then value.bmod (2 ^ bitWidth) else value % 2 ^ bitWidth

/-- `ToInt32(number)`. -/
def toInt32 (number : Number) : Int :=
  match number.toRat? with
  | some value => wrapInt 32 true (Number.truncate value)
  | none => 0

/-- The number with a given binary16 encoding. -/
def halfOfBits (bits : Nat) : Number :=
  let negative := decide (2 ^ 15 ≤ bits % 2 ^ 16)
  let exponent : Nat := bits / 2 ^ 10 % 2 ^ 5
  let fraction : Nat := bits % 2 ^ 10
  if exponent = 31 then
    if fraction = 0 then .infinity negative else .nan
  else
    let magnitude : ℚ :=
      if exponent = 0 then fraction * pow2 (-24)
      else ((2 ^ 10 + fraction : Nat) : ℚ) * pow2 ((exponent : Int) - 25)
    Number.ofRat negative (if negative then -magnitude else magnitude)

/-! ## The library -/

/-- The values that `vectorFromArray` takes for a type, nulls apart; `intervals` says which it
takes for an interval type. -/
def Buildable (intervals : IntervalUnit → Value → Prop) : DataType → Value → Prop
  | .null, _ => True
  | .bool, .bool _ => True
  | .int _ _, .number _ => True
  | .float _, .number _ => True
  | .utf8, .string _ | .largeUtf8, .string _ => True
  | .binary, .bytes _ | .largeBinary, .bytes _ => True
  | .fixedSizeBinary byteWidth, .bytes value => value.length = byteWidth
  | .interval unit, value => intervals unit value
  | _, _ => False

/-- A type whose column keeps numbers in a typed array. -/
def DataType.KeepsNumbers : DataType → Prop
  | .int _ _ | .float _ => True
  | _ => False

/-- `vectorFromArray`, and the vectors it builds: `get` decodes a row, and `values` is the row's
element of the array below. Numbers are stored as typed arrays store them, a half float as its
bits; text is stored in UTF-8. `round` is rounding to a precision. -/
structure VectorLibrary where
  Vector : Type
  vectorFromArray : DataType → List Value → Except Text Vector
  isValid : Vector → Nat → Bool
  get : Vector → Nat → Value
  values : Vector → Nat → Number
  round : Precision → Number → Number
  halfBits : Number → Nat
  intervals : IntervalUnit → Value → Prop
  intervalCell : IntervalUnit → Value → Value
  builds : ∀ type cells, (∀ cell ∈ cells, cell = .null ∨ Buildable intervals type cell) →
    ∃ vector, vectorFromArray type cells = .ok vector
  refusesBigint : ∀ type cells vector, type.KeepsNumbers →
    vectorFromArray type cells = .ok vector → ∀ value, .bigint value ∉ cells
  refusesInterval : ∀ unit cells vector, vectorFromArray (.interval unit) cells = .ok vector →
    ∀ cell ∈ cells, cell ≠ .null → intervals unit cell
  validOf : ∀ type cells vector index cell, vectorFromArray type cells = .ok vector →
    cells[index]? = some cell → type ≠ .null → isValid vector index = !isCanonicalNull cell
  getBool : ∀ cells vector index value, vectorFromArray .bool cells = .ok vector →
    cells[index]? = some (.bool value) → get vector index = .bool value
  getText : ∀ type cells vector index value, type = .utf8 ∨ type = .largeUtf8 →
    vectorFromArray type cells = .ok vector → cells[index]? = some (.string value) →
    get vector index = .string (dropBom (toWellFormed value))
  getBytes : ∀ type cells vector index value,
    type = .binary ∨ type = .largeBinary ∨ type = .fixedSizeBinary value.length →
    vectorFromArray type cells = .ok vector → cells[index]? = some (.bytes value) →
    get vector index = .bytes value
  getInterval : ∀ unit cells vector index cell,
    vectorFromArray (.interval unit) cells = .ok vector → cells[index]? = some cell →
    intervals unit cell → get vector index = intervalCell unit cell
  intValues : ∀ bitWidth signed cells vector index number value, bitWidth ≤ 32 →
    vectorFromArray (.int bitWidth signed) cells = .ok vector →
    cells[index]? = some (.number number) → number.toInt? = some value →
    values vector index = Number.ofInt (wrapInt bitWidth signed value)
  floatValues : ∀ precision cells vector index number, precision ≠ .half →
    vectorFromArray (.float precision) cells = .ok vector →
    cells[index]? = some (.number number) → values vector index = round precision number
  halfValues : ∀ cells vector index number, vectorFromArray (.float .half) cells = .ok vector →
    cells[index]? = some (.number number) →
    values vector index = Number.ofNat (halfBits number)
  roundDouble : ∀ number, round .double number = number
  halfBitsLt : ∀ number, halfBits number < 2 ^ 16
  halfOfBits : ∀ number, halfOfBits (halfBits number) = round .half number

/-! ## Writing -/

/-- `BigInt(value)`. -/
def bigIntOf : Value → Except Text Int
  | .bigint value => .ok value
  | .number value =>
      match value.toInt? with
      | some integer => .ok integer
      | none => .error (text "The number " ++ value.toText ++
          text " cannot be converted to a BigInt because it is not an integer")
  | .bool value => .ok (if value then 1 else 0)
  | value =>
      match Number.bigIntOfText? value.toText with
      | some integer => .ok integer
      | none => .error (text "Failed to parse String to BigInt")

/-- A store into an `Int32Array`. -/
def int32Cell : Value → Int
  | .null => 0
  | .bigint value => toInt32 (Number.ofInt value)
  | value => toInt32 value.toNumber

/-- A store into a `BigInt64Array`. -/
def bigIntCell : Value → Except Text Int
  | .null => .ok 0
  | value => do
      let integer ← bigIntOf value
      .ok (wrapInt 64 true integer)

def toBig : Value → Except Text Int
  | .bigint value => .ok value
  | value => bigIntOf (.number value.toNumber.trunc)

def decimalBytes : Nat → Int → Bytes
  | 0, _ => []
  | count + 1, value => UInt8.ofNat (value % 256).toNat :: decimalBytes count (value / 256)

/-- Little-endian two's-complement bytes of an unscaled decimal bigint. -/
def bigIntToDecimalBytes (value : Int) (byteWidth : Nat) : Bytes :=
  decimalBytes byteWidth (if value < 0 then 2 ^ (byteWidth * 8) + value else value)

def decimalCell (byteWidth : Nat) : Value → Except Text Bytes
  | .null => .ok (List.replicate byteWidth 0)
  | .bytes value => .ok (value.take byteWidth ++ List.replicate (byteWidth - value.length) 0)
  | value => do
      let integer ← toBig value
      .ok (bigIntToDecimalBytes integer byteWidth)

/-- A column's buffers: its validity and an `Int32Array`, a `BigInt64Array` or the bytes of its
decimals; or a vector of the library. -/
inductive ColumnData (library : VectorLibrary) where
  | int32 (valid : List Bool) (buf : List Int)
  | bigInt (valid : List Bool) (buf : List Int)
  | decimal (valid : List Bool) (buf : Bytes)
  | vector (vector : library.Vector)

section

variable (library : VectorLibrary)

def validity (cells : List Value) : List Bool :=
  cells.map fun cell => !isCanonicalNull cell

def buildInt32Data (cells : List Value) : Except Text (ColumnData library) :=
  .ok (.int32 (validity cells) (cells.map int32Cell))

def buildBigIntData (cells : List Value) : Except Text (ColumnData library) := do
  let bigBuf ← cells.mapM bigIntCell
  .ok (.bigInt (validity cells) bigBuf)

def buildDecimalData (cells : List Value) (byteWidth : Nat) : Except Text (ColumnData library) := do
  let bytes ← cells.mapM (decimalCell byteWidth)
  .ok (.decimal (validity cells) bytes.flatten)

/-- `writeCanonicalColumn` for the types without children. -/
def writeCanonicalColumn (type : DataType) (cells : List Value) :
    Except Text (ColumnData library) :=
  match type with
  | .decimal bitWidth _ _ => buildDecimalData library cells (bitWidth / 8)
  | .date .day => buildInt32Data library cells
  | .date .millisecond => buildBigIntData library cells
  | .time _ bitWidth =>
      if bitWidth = 64 then buildBigIntData library cells else buildInt32Data library cells
  | .timestamp _ _ => buildBigIntData library cells
  | .duration _ => buildBigIntData library cells
  | .int bitWidth signed =>
      if bitWidth = 64 then buildBigIntData library cells
      else ColumnData.vector <$> library.vectorFromArray (.int bitWidth signed) cells
  | type => ColumnData.vector <$> library.vectorFromArray type cells

/-! ## Reading -/

def isValid (column : ColumnData library) (index : Nat) : Bool :=
  match column with
  | .int32 valid _ | .bigInt valid _ | .decimal valid _ => valid[index]?.getD false
  | .vector vector => library.isValid vector index

/-- `Number(data.values[index])`. -/
def numberAt (column : ColumnData library) (index : Nat) : Number :=
  match column with
  | .int32 _ buf => Number.ofInt (buf[index]?.getD 0)
  | .vector vector => library.values vector index
  | _ => .nan

/-- `data.values[index]` of a 64-bit array, which has the type's signedness. -/
def bigIntAt (signed : Bool) (column : ColumnData library) (index : Nat) : Int :=
  match column with
  | .bigInt _ buf => wrapInt 64 signed (buf[index]?.getD 0)
  | _ => 0

def decimalToBigInt (byteWidth : Nat) (column : ColumnData library) (index : Nat) : Int :=
  match column with
  | .decimal _ buf => decimalViewToBigInt ((buf.drop (index * byteWidth)).take byteWidth)
  | _ => 0

/-- `col.get(index)`. -/
def getAt (column : ColumnData library) (index : Nat) : Value :=
  match column with
  | .vector vector => library.get vector index
  | _ => .null

/-- `readFromData` for the types without children. -/
def readFromData (type : DataType) (column : ColumnData library) (index : Nat) : Value :=
  if ¬isValid library column index then .null
  else
    match type with
    | .null => .null
    | .bool => getAt library column index
    | .int bitWidth signed =>
        if bitWidth = 64 then .bigint (bigIntAt library signed column index)
        else .number (numberAt library column index)
    | .float _ => .number (numberAt library column index)
    | .utf8 | .largeUtf8 => .string (getAt library column index).toText
    | .binary | .largeBinary | .fixedSizeBinary _ => getAt library column index
    | .decimal bitWidth _ _ => .bigint (decimalToBigInt library (bitWidth / 8) column index)
    | .date .day => .number (numberAt library column index)
    | .date .millisecond => .bigint (bigIntAt library true column index)
    | .time _ bitWidth =>
        if bitWidth = 64 then .bigint (bigIntAt library true column index)
        else .number (numberAt library column index)
    | .timestamp _ _ | .duration _ => .bigint (bigIntAt library true column index)
    | _ => getAt library column index

end

end VgiWorker.Arrow
