import VgiWorker.Data.Walks
import VgiWorker.Js.Bytes
import VgiWorker.Js.Number
import VgiWorker.Js.TextDecoder

/-!
# Embedded record envelopes

The checks of the IPC messages around an embedded record, before a reader picks
its batch: of projection records, of column expressions and of publications.
Each is a loop over the messages, from the offset of one to the offset of the next.
-/

set_option autoImplicit false

namespace VgiWorker.Arrow.Envelopes

open Js Js.DataView

def maxBytes : Nat := 8 * 1024 * 1024

def schemaKind : Nat := 1
def dictionaryKind : Nat := 2
def recordKind : Nat := 3

/-! ## FlatBuffers in the whole input -/

/-- The table at the start of a header. -/
def rootTable (bytes : Bytes) (head : Nat) : Except Text Nat := do
  let offset ← getUint32 bytes head
  .ok (head + offset)

/-- The offset of a field in its table; zero where it is absent. -/
def slot (bytes : Bytes) (table : Nat) (id : Nat) : Except Text Nat := do
  let back ← getInt32 bytes table
  let size ← getUint16 bytes (table - back)
  if 4 + id * 2 < size then getUint16 bytes (table - back + 4 + id * 2) else .ok 0

/-- The header type in a slot of a message; zero for an absent one. -/
def kindAt (bytes : Bytes) (table kindSlot : Nat) : Except Text Nat :=
  if kindSlot = 0 then .ok 0 else getUint8 bytes (table + kindSlot : Nat)

/-- The body length in a slot of a message; zero for an absent one. -/
def bodyAt (bytes : Bytes) (table bodySlot : Nat) : Except Text Int :=
  if bodySlot = 0 then .ok 0 else getBigInt64 bytes (table + bodySlot : Nat)

/-- Where a message's header starts, and its length. -/
def messagePrefix (bytes : Bytes) (offset : Nat) : Except Text (Nat × Int) := do
  let first ← getInt32 bytes offset
  let size := if first = -1 then 8 else 4
  let length ← getInt32 bytes (offset + size - 4 : Nat)
  .ok (offset + size, length)

/-! ## Projection records -/

structure ProjectionState where
  offset : Nat
  schemas : Nat
  batches : Nat

def incomplete {α : Type} : Except Text α :=
  .error (text "projection requires one complete IPC batch")

/-- The message kinds counted after one of a kind. -/
def countKind (kind : Nat) (state : ProjectionState) : Except Text (Nat × Nat) :=
  if kind = schemaKind ∧ state.schemas = 0 ∧ state.batches = 0 then .ok (state.schemas + 1, state.batches)
  else if kind = dictionaryKind ∧ state.schemas = 1 ∧ state.batches = 0 then
    .ok (state.schemas, state.batches)
  else if kind = recordKind ∧ state.schemas = 1 ∧ state.batches = 0 then
    .ok (state.schemas, state.batches + 1)
  else incomplete

def projectionPrefix (bytes : Bytes) (offset : Nat) : Except Text (Nat × Int) := do
  let truncated : Except Text (Nat × Int) := .error (text "truncated projection IPC prefix")
  if bytes.length - offset < 4 then truncated
  else do
    let first ← getInt32 bytes offset
    if bytes.length - offset < (if first = -1 then 8 else 4) then truncated
    else messagePrefix bytes offset

def projectionMessage (bytes : Bytes) (state : ProjectionState) :
    Except Text (Data.Turn ProjectionState ProjectionState) :=
  if bytes.length ≤ state.offset then .ok (.finish state)
  else do
    let (head, length) ← projectionPrefix bytes state.offset
    if length = 0 then .ok (.finish { state with offset := head })
    else if length < 0 ∨ head + length > bytes.length then
      .error (text "invalid projection IPC message")
    else do
      let table ← rootTable bytes head
      let kindSlot ← slot bytes table 1
      let bodySlot ← slot bytes table 3
      let kind ← kindAt bytes table kindSlot
      let body ← bodyAt bytes table bodySlot
      if body < 0 ∨ body > bytes.length - head - length ∨ body.natAbs > Number.maxSafeInteger then
        .error (text "invalid projection IPC body")
      else do
        let (schemas, batches) ← countKind kind state
        .ok (.goOn ⟨head + length.toNat + body.toNat, schemas, batches⟩)

/-- The part of `projectionRecord` before the batch is read, stopped after a number of messages. -/
def projectionEnvelope (turns : Nat) (bytes : Bytes) : Except Text (Option Unit) :=
  if bytes.length = 0 ∨ bytes.length > maxBytes then .error (text "invalid projection record size")
  else do
    match ← Data.walk (projectionMessage bytes) turns ⟨0, 0, 0⟩ with
    | none => .ok none
    | some state =>
        if state.offset ≠ bytes.length ∨ state.schemas ≠ 1 ∨ state.batches ≠ 1 then incomplete
        else .ok (some ())

/-! ## Column expressions -/

structure ExpressionState where
  offset : Nat
  kinds : List Nat
  textBuffers : List Bytes

/-- The buffers that hold text: the value buffers of the seven Utf8 columns. -/
def textBufferIndices : List Nat :=
  [2, 5, 10, 14, 17, 20, 23]

/-- A text buffer of a record batch, whose body starts at `body`. -/
def textBuffer (bytes : Bytes) (buffers body : Nat) (bodyLength : Int) (index : Nat) :
    Except Text Bytes := do
  let buffer := buffers + 4 + index * 16
  let start ← getBigInt64 bytes buffer
  let size ← getBigInt64 bytes (buffer + 8 : Nat)
  if start < 0 ∨ size < 0 ∨ start + size > bodyLength then
    .error (text "invalid expression string buffer")
  else .ok (subview bytes (body + start.toNat) size.toNat)

def recordTextBuffers (bytes : Bytes) (table body : Nat) (bodyLength : Int) :
    Except Text (List Bytes) := do
  let headerSlot ← slot bytes table 2
  let recordOffset ← getUint32 bytes (table + headerSlot : Nat)
  let record := table + headerSlot + recordOffset
  let compression ← slot bytes record 3
  if compression ≠ 0 then .error (text "compressed expression IPC is unsupported")
  else do
    let bufferSlot ← slot bytes record 2
    let bufferOffset ← getUint32 bytes (record + bufferSlot : Nat)
    let buffers := record + bufferSlot + bufferOffset
    let count ← getUint32 bytes buffers
    if count ≠ 26 then .error (text "invalid SqlExpression buffer layout")
    else textBufferIndices.mapM (textBuffer bytes buffers body bodyLength)

def messageTextBuffers (bytes : Bytes) (kind table body : Nat) (bodyLength : Int) :
    Except Text (List Bytes) :=
  if kind = recordKind then recordTextBuffers bytes table body bodyLength else .ok []

def expressionMessage (bytes : Bytes) (state : ExpressionState) :
    Except Text (Data.Turn (List Bytes) ExpressionState) :=
  if bytes.length ≤ state.offset then .error (text "expression IPC lacks end marker")
  else do
    let (head, length) ← messagePrefix bytes state.offset
    if length = 0 then
      if head ≠ bytes.length ∨ state.kinds ≠ [schemaKind, recordKind] then
        .error (text "SqlExpression requires exactly one complete IPC batch")
      else .ok (.finish state.textBuffers)
    else if length < 0 ∨ head + length > bytes.length then
      .error (text "invalid expression IPC length")
    else do
      let table ← rootTable bytes head
      let kindSlot ← slot bytes table 1
      let bodySlot ← slot bytes table 3
      if kindSlot = 0 then .error (text "invalid expression IPC message")
      else do
        let kind ← kindAt bytes table kindSlot
        let body ← bodyAt bytes table bodySlot
        if body < 0 ∨ body > bytes.length - head - length then
          .error (text "invalid expression IPC body")
        else do
          let found ← messageTextBuffers bytes kind table (head + length.toNat) body
          .ok (.goOn ⟨head + length.toNat + body.toNat, state.kinds ++ [kind],
            state.textBuffers ++ found⟩)

/-- `envelope`, stopped after a number of messages. -/
def expressionEnvelope (turns : Nat) (bytes : Bytes) : Except Text (Option (List Bytes)) :=
  if bytes.length = 0 ∨ bytes.length > maxBytes then
    .error (text "invalid generated expression size")
  else Data.walk (expressionMessage bytes) turns ⟨0, [], []⟩

/-! ## Publications -/

structure PublicationState where
  position : Nat
  messages : Nat

/-- Where a field of a table is, in a view of the header. -/
def tableField (head : Bytes) (table field : Nat) : Except Text (Option Nat) := do
  let back ← getInt32 head table
  let size ← getUint16 head (table - back)
  if size < 4 ∨ size % 2 = 1 ∨ table - back + size > head.length then .error (text "invalid vtable")
  else if size ≤ 4 + 2 * field then .ok none
  else do
    let offset ← getUint16 head (table - back + 4 + 2 * field)
    .ok (if offset = 0 then none else some (table + offset))

def follow (head : Bytes) (pointer : Nat) : Except Text Nat := do
  let offset ← getUint32 head pointer
  .ok (pointer + offset)

def pointerKey : Text := text "vgi_rpc.location"
def logKey : Text := text "vgi_rpc.log_level"

/-- The key of an entry of custom metadata. -/
def entryKey (head : Bytes) (vector index : Nat) : Except Text (Option Text) := do
  let entry ← follow head (vector + 4 + 4 * index)
  match ← tableField head entry 0 with
  | none => .ok none
  | some pointer => do
      let start ← follow head pointer
      let length ← getUint32 head start
      if start + 4 + length > head.length then .error (text "invalid metadata key")
      else .ok (some (textDecode (subview head (start + 4) length)))

def checkEntry (head : Bytes) (vector index : Nat) : Except Text Unit := do
  let key ← entryKey head vector index
  if key = some pointerKey ∨ key = some logKey then
    .error (text "pointer/log metadata is not a catalog result")
  else .ok ()

def checkRows (head : Bytes) (root : Nat) : Except Text Unit := do
  match ← tableField head root 2 with
  | none => .error (text "missing record header")
  | some header => do
      let record ← follow head header
      match ← tableField head record 0 with
      | none => .error (text "expected one response row")
      | some position => do
          let rows ← getBigInt64 head position
          if rows = 1 then .ok () else .error (text "expected one response row")

def checkRecord (head : Bytes) (root kind : Nat) : Except Text Unit :=
  if kind = recordKind then checkRows head root else .ok ()

def checkMetadata (head : Bytes) (root : Nat) : Except Text Unit := do
  match ← tableField head root 4 with
  | none => .ok ()
  | some metadata => do
      let vector ← follow head metadata
      let count ← getUint32 head vector
      if 4 * count > head.length then .error (text "invalid metadata vector")
      else do
        let _ ← (List.range count).mapM (checkEntry head vector)
        .ok ()

def publicationKind (head : Bytes) (root : Nat) : Except Text Nat := do
  match ← tableField head root 1 with
  | none => .ok 0
  | some position => getUint8 head position

def publicationBody (head : Bytes) (root : Nat) : Except Text Int := do
  match ← tableField head root 3 with
  | none => .ok 0
  | some position => getBigInt64 head position

/-- The length of a message's body, from a view of its header. -/
def checkHeader (head : Bytes) (messages : Nat) : Except Text Int := do
  let root ← getUint32 head 0
  let kind ← publicationKind head root
  if some kind ≠ (if messages = 0 then some schemaKind else if messages = 1 then some recordKind
      else none) then
    .error (text "expected one schema and one record batch")
  else do
    checkRecord head root kind
    checkMetadata head root
    publicationBody head root

def publicationMessage (bytes : Bytes) (state : PublicationState) :
    Except Text (Data.Turn Nat PublicationState) :=
  if bytes.length ≤ state.position then .ok (.finish state.messages)
  else do
    let (start, length) ← messagePrefix bytes state.position
    if length = 0 then
      if start ≠ bytes.length then .error (text "trailing data")
      else .ok (.finish state.messages)
    else if length < 4 ∨ length > bytes.length - start then
      .error (text "invalid message length")
    else do
      let body ← checkHeader (subview bytes start length.toNat) state.messages
      let finish := start + length.toNat
      if body.natAbs > Number.maxSafeInteger ∨ body < 0 ∨ body > bytes.length - finish then
        .error (text "invalid body length")
      else .ok (.goOn ⟨finish + body.toNat, state.messages + 1⟩)

/-- `validateCatalogPublicationEnvelope`, stopped after a number of messages. -/
def validateCatalogPublicationEnvelope (turns : Nat) (bytes : Bytes) : Except Text (Option Unit) :=
  Except.mapError (text "invalid published RPC envelope: " ++ ·) do
    match ← Data.walk (publicationMessage bytes) turns ⟨0, 0⟩ with
    | none => .ok none
    | some messages =>
        if messages ≠ 2 then .error (text "missing response batch") else .ok (some ())

end VgiWorker.Arrow.Envelopes
