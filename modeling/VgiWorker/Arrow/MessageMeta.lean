import VgiWorker.Data.Walks
import VgiWorker.Js.Bytes
import VgiWorker.Js.Number
import VgiWorker.Js.OrderedMap
import VgiWorker.Js.TextDecoder

/-!
# Message envelopes

The reader that walks the messages of an IPC stream to the first record batch,
for its row count and its custom metadata. It takes the FlatBuffers of a message
apart itself, and a byte that is not there reads as zero.
-/

set_option autoImplicit false

namespace VgiWorker.Arrow.MessageMeta

open Js

/-! ## Bytes -/

/-- `bytes[position]`, where the bitwise operators take `undefined` as zero. -/
def byteAt (bytes : Bytes) (position : Int) : Nat :=
  if position < 0 then 0 else (bytes[position.toNat]?.getD 0).toNat

def readU32LE (bytes : Bytes) (position : Int) : Nat :=
  byteAt bytes position + 0x100 * byteAt bytes (position + 1) +
    0x10000 * byteAt bytes (position + 2) + 0x1000000 * byteAt bytes (position + 3)

def readI32LE (bytes : Bytes) (position : Int) : Int :=
  DataView.toSigned 0x80000000 (readU32LE bytes position)

def readI16LE (bytes : Bytes) (position : Int) : Int :=
  DataView.toSigned 0x8000 (byteAt bytes position + 0x100 * byteAt bytes (position + 1))

def readI64LE (bytes : Bytes) (position : Int) : Int :=
  DataView.toSigned 0x8000000000000000
    (readU32LE bytes position + 0x100000000 * readU32LE bytes (position + 4))

/-- An end of `subarray`: from the end of the bytes when negative, and within them. -/
def clampEnd (bytes : Bytes) (position : Int) : Nat :=
  if position < 0 then (bytes.length + position).toNat else min position.toNat bytes.length

def subarray (bytes : Bytes) (start finish : Int) : Bytes :=
  (bytes.drop (clampEnd bytes start)).take (clampEnd bytes finish - clampEnd bytes start)

/-! ## FlatBuffers -/

/-- A table: where it is, and its fields' offsets. -/
structure FbTable where
  pos : Int
  fields : List Int

def readTable (buf : Bytes) (tablePos : Int) : Except Text FbTable :=
  let vtablePos := tablePos - readI32LE buf tablePos
  let fieldCount := (readI16LE buf vtablePos - 4) / 2
  if fieldCount < 0 then
    .error (text "Invalid typed array length: " ++ Number.decimalInt fieldCount)
  else
    .ok ⟨tablePos, (List.range fieldCount.toNat).map fun index =>
      readI16LE buf (vtablePos + 4 + 2 * index)⟩

def fieldAt (table : FbTable) (fieldIndex : Nat) : Option Int :=
  match table.fields[fieldIndex]? with
  | none => none
  | some offset => if offset = 0 then none else some (table.pos + offset)

def follow (buf : Bytes) (ptrPos : Int) : Int :=
  ptrPos + readU32LE buf ptrPos

def readString (buf : Bytes) (strPos : Int) : Text :=
  textDecode (subarray buf (strPos + 4) (strPos + 4 + readU32LE buf strPos))

/-! ## One message -/

structure ParsedMessage where
  /-- `undefined` where the byte is not there. -/
  headerType : Option Nat
  numRows : Number
  bodyLength : Int
  metadata : OrderedMap Text Text

def typeSchema : Nat := 1
def typeDictionaryBatch : Nat := 2
def typeRecordBatch : Nat := 3

def readHeaderType (head : Bytes) (msg : FbTable) : Option Nat :=
  match fieldAt msg 1 with
  | none => some 0
  | some position =>
      if position < 0 then none else head[position.toNat]?.map UInt8.toNat

/-- The length of a record batch. -/
def readNumRows (head : Bytes) (msg : FbTable) (headerType : Option Nat) : Except Text Number :=
  if headerType = some typeRecordBatch then
    match fieldAt msg 2 with
    | none => .ok Number.zero
    | some position => do
        let batch ← readTable head (follow head position)
        match fieldAt batch 0 with
        | none => .ok Number.zero
        | some length => .ok (Number.ofInt (readI64LE head length))
  else .ok Number.zero

def readText (head : Bytes) (entry : FbTable) (fieldIndex : Nat) : Text :=
  match fieldAt entry fieldIndex with
  | none => []
  | some position => readString head (follow head position)

def readEntry (head : Bytes) (vecPos : Int) (metadata : OrderedMap Text Text) (index : Nat) :
    Except Text (OrderedMap Text Text) := do
  let entry ← readTable head (follow head (vecPos + 4 + 4 * index))
  .ok (metadata.set (readText head entry 0) (readText head entry 1))

/-- The position of the custom metadata and the number of its entries. -/
def metadataVector (head : Bytes) (msg : FbTable) : Option (Int × Nat) :=
  (fieldAt msg 4).map fun position => (follow head position, readU32LE head (follow head position))

def readMetadata (head : Bytes) (msg : FbTable) : Except Text (OrderedMap Text Text) :=
  match metadataVector head msg with
  | none => .ok .empty
  | some (vecPos, vecLen) => (List.range vecLen).foldlM (readEntry head vecPos) .empty

def readMessageEnvelope (head : Bytes) : Except Text ParsedMessage := do
  let msg ← readTable head (readU32LE head 0)
  let headerType := readHeaderType head msg
  let bodyLength :=
    match fieldAt msg 3 with
    | none => 0
    | some position => readI64LE head position
  let numRows ← readNumRows head msg headerType
  let metadata ← readMetadata head msg
  .ok ⟨headerType, numRows, bodyLength, metadata⟩

/-! ## The stream -/

structure BatchMeta where
  numRows : Number
  metadata : OrderedMap Text Text

/-- Where the head of the message at a position starts and ends, unless the stream ends there. -/
def headBounds (stream : Bytes) (pos : Int) : Option (Int × Int) :=
  if pos + 4 > stream.length then none
  else
    let first := readI32LE stream pos
    -- A continuation marker stands before the length.
    let start := if first = -1 then pos + 8 else pos + 4
    if start > stream.length then none
    else
      let metaLen := if first = -1 then readI32LE stream (pos + 4) else first
      if metaLen = 0 ∨ start + metaLen > stream.length then none
      else some (start, start + metaLen)

/-- The message at a position: what is returned, or the position after its body. The position is
exact, where the source rounds one far from the stream to a double as far from it. -/
def scanMessage (stream : Bytes) (pos : Int) :
    Except Text (Data.Turn (Option BatchMeta) Int) :=
  match headBounds stream pos with
  | none => .ok (.finish none)
  | some (start, finish) => do
      let parsed ← readMessageEnvelope (subarray stream start finish)
      if parsed.headerType = some typeRecordBatch then
        .ok (.finish (some ⟨parsed.numRows, parsed.metadata⟩))
      else if parsed.headerType = some typeSchema ∨ parsed.headerType = some typeDictionaryBatch then
        .ok (.goOn (finish + parsed.bodyLength))
      else .ok (.finish none)

/-- `readFirstRecordBatchMeta`, stopped after a number of messages. -/
def readFirstRecordBatchMeta (turns : Nat) (stream : Bytes) :
    Except Text (Option (Option BatchMeta)) :=
  Data.walk (scanMessage stream) turns 0

end VgiWorker.Arrow.MessageMeta
