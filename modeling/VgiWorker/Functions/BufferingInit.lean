import VgiWorker.Crypto.AttachTicketProperties
import VgiWorker.Protocol.RequestWire

/-!
# The persisted buffering init

The init request and response of a buffering function as one payload of
length-prefixed parts, from which any worker rebuilds them.
-/

set_option autoImplicit false

namespace VgiWorker.Functions

open VgiWorker.Js VgiWorker.Arrow VgiWorker.Protocol
open VgiWorker.Crypto (int64Bytes int64Value int64Value_int64Bytes length_int64Bytes)

/-- A `Uint8Array`, with what its buffer holds behind it. -/
structure ByteView where
  bytes : Bytes
  beyond : Bytes

structure BufferingInit where
  request : InitRequest
  response : GlobalInitResponse

def concatLenPrefixed (parts : List Bytes) : Bytes :=
  parts.flatMap (putChunk 4)

/-- One part of `splitLenPrefixed` with the view behind it: the length is read within the view,
and `subarray` clamps the part to it. -/
def nextPart (buf : ByteView) : Except WireFault (ByteView × ByteView) :=
  match takeInt 4 buf.bytes with
  | none => .error (.rangeError (text "Out of bounds access"))
  | some (length, rest) =>
      .ok (⟨rest.take length, rest.drop length ++ buf.beyond⟩, ⟨rest.drop length, buf.beyond⟩)

/-- `new DataView(view.buffer, view.byteOffset, 8).getBigInt64(0, true)`: the buffer, not the view,
has to hold the eight bytes. -/
def getBigInt64 (view : ByteView) : Except WireFault Int :=
  match takeBytes 8 (view.bytes ++ view.beyond) with
  | none => .error (.rangeError (text "Length out of range of buffer"))
  | some (taken, _) => .ok (int64Value taken)

def encodeGlobalInitResponse (response : GlobalInitResponse) : Except WireFault Bytes := do
  let maxWorkers ← bigIntOfNumber response.maxWorkers
  .ok (concatLenPrefixed
    [response.executionId, response.opaqueData.getD [], int64Bytes maxWorkers])

def decodeGlobalInitResponse (bytes : ByteView) : Except WireFault GlobalInitResponse := do
  let (executionId, rest) ← nextPart bytes
  let (opaqueData, rest) ← nextPart rest
  let (mwBuf, _) ← nextPart rest
  let maxWorkers ← getBigInt64 mwBuf
  .ok
    { maxWorkers := Number.ofInt maxWorkers
      executionId := executionId.bytes
      opaqueData := if opaqueData.bytes = [] then none else some opaqueData.bytes }

section

variable (runtime : Runtime)

def encodeBufferingInit (request : InitRequest) (response : GlobalInitResponse) :
    Except WireFault Bytes := do
  let initBatch ← serializeInitRequest runtime request
  let respBytes ← encodeGlobalInitResponse response
  .ok (concatLenPrefixed [runtime.serializeBatch initBatch, respBytes])

def decodeBufferingInit (payload : ByteView) : Except WireFault BufferingInit := do
  let (initBytes, rest) ← nextPart payload
  let (respBytes, _) ← nextPart rest
  let initBatch ← libraryResult (runtime.deserializeBatch initBytes.bytes)
  let initDict ← batchToScalarDict runtime.dateText initBatch
  let request ← deserializeInitRequest runtime initDict
  let response ← decodeGlobalInitResponse respBytes
  .ok ⟨request, response⟩

end

/-! ## Parts -/

def maxPart : Nat := 256 ^ 4

theorem nextPart_put (chunk rest beyond : Bytes) (short : chunk.length < maxPart) :
    nextPart ⟨putChunk 4 chunk ++ rest, beyond⟩ = .ok (⟨chunk, rest ++ beyond⟩, ⟨rest, beyond⟩) := by
  simp only [nextPart, putChunk, List.append_assoc]
  rw [takeInt_leBytes_of_lt 4 chunk.length _ short]
  simp

/-- The first part of a cut view, and what is left behind it. -/
theorem nextPart_cut (chunk rest beyond : Bytes) (short : chunk.length < maxPart) (count : Nat)
    (part tail : ByteView)
    (success : nextPart ⟨(putChunk 4 chunk ++ rest).take count, beyond⟩ = .ok (part, tail)) :
    4 ≤ count ∧ part = ⟨chunk.take (count - 4), tail.bytes ++ beyond⟩ ∧
      tail = ⟨rest.take (count - 4 - chunk.length), beyond⟩ := by
  by_cases enough : 4 ≤ count
  · have split : (putChunk 4 chunk ++ rest).take count =
        leBytes 4 chunk.length ++ (chunk ++ rest).take (count - 4) := by
      rw [putChunk, List.append_assoc, List.take_append, length_leBytes,
        List.take_of_length_le (by rw [length_leBytes]; exact enough)]
    rw [split, nextPart, takeInt_leBytes_of_lt 4 chunk.length _ short] at success
    cases success
    refine ⟨enough, ?_, ?_⟩
    · rw [List.take_take, List.take_append_of_le_length (Nat.min_le_left _ _), Nat.min_comm,
        ← List.take_take, List.take_of_length_le (Nat.le_refl chunk.length)]
    · rw [List.drop_take, List.drop_left]
  · exfalso
    have few : ((putChunk 4 chunk ++ rest).take count).length < 4 := by
      rw [List.length_take]
      omega
    simp only [nextPart, takeInt, takeBytes, if_pos few] at success
    cases success

/-- A response whose end is cut off, and is not in the buffer either, is refused. -/
theorem decodeGlobalInitResponse_cut (executionId opaqueData beyond : Bytes) (maxWorkers : Int)
    (executionIdShort : executionId.length < maxPart) (opaqueShort : opaqueData.length < maxPart)
    (count : Nat)
    (cut : count + beyond.length <
      (concatLenPrefixed [executionId, opaqueData, int64Bytes maxWorkers]).length) :
    ∃ fault, decodeGlobalInitResponse
      ⟨(concatLenPrefixed [executionId, opaqueData, int64Bytes maxWorkers]).take count, beyond⟩ =
        .error fault := by
  cases decoded : decodeGlobalInitResponse
      ⟨(concatLenPrefixed [executionId, opaqueData, int64Bytes maxWorkers]).take count, beyond⟩ with
  | error fault => exact ⟨fault, rfl⟩
  | ok response =>
      exfalso
      obtain ⟨⟨idPart, idTail⟩, first, decoded⟩ := except_bind_ok _ _ _ decoded
      obtain ⟨⟨opaquePart, opaqueTail⟩, second, decoded⟩ := except_bind_ok _ _ _ decoded
      obtain ⟨⟨mwBuf, last⟩, third, decoded⟩ := except_bind_ok _ _ _ decoded
      obtain ⟨value, read, _⟩ := except_bind_ok _ _ _ decoded
      simp only [concatLenPrefixed, List.flatMap_cons, List.flatMap_nil, List.append_nil] at first cut
      obtain ⟨_, _, rfl⟩ := nextPart_cut _ _ _ executionIdShort _ _ _ first
      obtain ⟨_, _, rfl⟩ := nextPart_cut _ _ _ opaqueShort _ _ _ second
      have eight : (int64Bytes maxWorkers).length < maxPart := by
        rw [length_int64Bytes]
        decide
      rw [← List.append_nil (putChunk 4 (int64Bytes maxWorkers))] at third
      obtain ⟨_, rfl, rfl⟩ := nextPart_cut _ _ _ eight _ _ _ third
      have few : ((int64Bytes maxWorkers).take (count - 4 - executionId.length - 4 -
          opaqueData.length - 4) ++ (([] : Bytes).take (count - 4 - executionId.length - 4 -
          opaqueData.length - 4 - (int64Bytes maxWorkers).length) ++ beyond)).length < 8 := by
        simp only [List.length_append, List.length_take, putChunk, length_leBytes,
          length_int64Bytes, List.length_nil] at cut ⊢
        omega
      simp only [getBigInt64, takeBytes, if_pos few] at read
      cases read

end VgiWorker.Functions
