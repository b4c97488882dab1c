import VgiWorker.Data.CheckedMemo
import VgiWorker.Protocol.FunctionHandlers

/-!
# The carried init request

The cursor of an HTTP stream carries the init request as it arrived, packed.
Each continuation turn parses it again, through a memo of the process, and
rebuilds the stream handlers from it.
-/

set_option autoImplicit false

namespace VgiWorker.Protocol

open VgiWorker.Js VgiWorker.Crypto

/-! ## Packing -/

/-- The zstd codec of a runtime that has a synchronous one. -/
structure ZstdCodec where
  compress : Bytes → Bytes
  decompress : Bytes → Except Text Bytes

def rawCodec : UInt8 := 0

def zstdCodec : UInt8 := 1

def packInitRequest (zstd : Option ZstdCodec) (ipc : Bytes) : Bytes :=
  match zstd with
  | none => rawCodec :: ipc
  | some codec =>
      if (codec.compress ipc).length < ipc.length then zstdCodec :: codec.compress ipc
      else rawCodec :: ipc

def unpackInitRequest (zstd : Option ZstdCodec) (packed : Bytes) : Except Text Bytes :=
  match packed with
  | [] => .error (text "state token carries no init request")
  | codec :: payload =>
      if codec = rawCodec then .ok payload
      else if codec = zstdCodec then
        match zstd with
        | some codec => codec.decompress payload
        | none =>
            .error (text "state token carries a zstd-compressed init request, and this runtime " ++
              text "has no synchronous zstd (it was minted by a worker running under Bun or " ++
              text "Node >= 22.15 with the same signing key)")
      else
        .error (text "state token carries an init request with unknown codec " ++
          Number.decimal codec.toNat)

/-! ## Parsing through the memo -/

/-- FNV-1a over the bytes, folded with the length. -/
def hashBytes (bytes : Bytes) : UInt32 :=
  bytes.foldl (fun hash byte => (hash ^^^ byte.toUInt32) * 0x01000193)
    (0x811c9dc5 ^^^ UInt32.ofNat bytes.length)

def maxEntries : Nat := 128

abbrev ParseMemo := List (CheckedMemo.Entry UInt32 Bytes WireInit)

section

variable (readInit : Bytes → Except Text WireInit)

def parsePacked (zstd : Option ZstdCodec) (packed : Bytes) : Except Text WireInit := do
  let ipc ← unpackInitRequest zstd packed
  readInit ipc

def parseCarriedInitRequest (zstd : Option ZstdCodec) (memo : ParseMemo) (packed : Bytes) :
    Except Text WireInit × ParseMemo :=
  CheckedMemo.ask hashBytes (parsePacked readInit zstd) maxEntries memo packed

end

/-! ## The cursor -/

/-- The stream state as far as the handlers are rebuilt from it. Only the init turn has the
bytes of the request, every other one has them packed. -/
structure StreamState where
  functionName : Text
  initRequestIpc : Bytes
  initRequestPacked : Option Bytes
  executionId : Bytes
  maxWorkers : Number
  opaqueData : Option Bytes

structure Cursor where
  functionName : Text
  initRequestPacked : Bytes
  executionId : Bytes
  maxWorkers : Number
  opaqueData : Option Bytes

def StreamState.ofInit (turn : InitTurn) (requestIpc : Bytes) : StreamState where
  functionName := turn.request.bindCall.functionName
  initRequestIpc := requestIpc
  initRequestPacked := none
  executionId := turn.response.executionId
  maxWorkers := turn.response.maxWorkers
  opaqueData := turn.response.opaqueData

def StreamState.serialize (zstd : Option ZstdCodec) (state : StreamState) : Cursor where
  functionName := receivedName state.functionName
  initRequestPacked := state.initRequestPacked.getD (packInitRequest zstd state.initRequestIpc)
  executionId := state.executionId
  maxWorkers := state.maxWorkers
  opaqueData := state.opaqueData

def Cursor.deserialize (cursor : Cursor) : StreamState where
  functionName := cursor.functionName
  initRequestIpc := []
  initRequestPacked := some cursor.initRequestPacked
  executionId := cursor.executionId
  maxWorkers := cursor.maxWorkers
  opaqueData := cursor.opaqueData

/-- The cursor of a stream after its init turn and the continuation turns that runtimes served. -/
def cursorAfter (zstd : Option ZstdCodec) (turn : InitTurn) (requestIpc : Bytes)
    (served : List (Option ZstdCodec)) : Cursor :=
  served.foldl (fun cursor runtime => cursor.deserialize.serialize runtime)
    ((StreamState.ofInit turn requestIpc).serialize zstd)

/-! ## Rebuilding -/

section

variable (crypto : Primitives) (fingerprintInputs : Bytes → Except Text ScanBind)
  (readInit : Bytes → Except Text WireInit) (config : FunctionHandlerConfig)

/-- What a continuation turn hands to the stream handlers; an accepted split is not asked for its
anchor again. -/
def rebuildTurn (zstd : Option ZstdCodec) (memo : ParseMemo) (cursor : Cursor)
    (scope : CallScope) : Except HandlerFault InitTurn := do
  let carried ← thrown (parseCarriedInitRequest readInit zstd memo cursor.initRequestPacked).1
  let request ← resolveSplitPayloads crypto fingerprintInputs config carried.request
    carried.bindCallIpc scope.auth false
  let func ← thrown (config.registry cursor.functionName
    (strippedContext crypto config request.bindCall scope))
  .ok ⟨func, request, ⟨cursor.maxWorkers, cursor.executionId, cursor.opaqueData⟩⟩

end

end VgiWorker.Protocol
