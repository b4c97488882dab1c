import VgiWorker.Data.Result
import VgiWorker.Js.Bytes

/-!
# The exchange state frame

The flat binary frame in which the cursor of an HTTP stream carries its state
between turns.
-/

set_option autoImplicit false

namespace VgiWorker.Protocol

open VgiWorker.Js

/-- The fields of the frame: the name in UTF-8, `maxWorkers` as its binary64 bits, the user state
as its IPC bytes. -/
structure ExchangeFrame where
  functionName : Bytes
  initRequestPacked : Bytes
  executionId : Bytes
  maxWorkers : UInt64
  opaqueData : Option Bytes
  userState : Option Bytes
  filterHistory : Option Bytes
  isProducer : Bool
  morePending : Bool

namespace ExchangeFrame

def stateFormatVersion : UInt8 := 1

def flag (set : Bool) (bit : UInt8) : UInt8 :=
  if set then bit else 0

def flags (frame : ExchangeFrame) : UInt8 :=
  flag frame.isProducer 1 ||| flag frame.opaqueData.isSome 2 ||| flag frame.userState.isSome 4 |||
    flag frame.filterHistory.isSome 8 ||| flag frame.morePending 16

/-- The fields in order; an absent one leaves no chunk. -/
def chunks (frame : ExchangeFrame) : List Bytes :=
  [frame.functionName, frame.initRequestPacked, frame.executionId] ++ frame.opaqueData.toList ++
    frame.userState.toList ++ frame.filterHistory.toList

def serialize (frame : ExchangeFrame) : Bytes :=
  stateFormatVersion :: frame.flags ::
    (leBytes 8 frame.maxWorkers.toNat ++ frame.chunks.flatMap (putChunk 4))

def take (bytes : Bytes) : Except Text (Bytes × Bytes) :=
  match takeChunk 4 bytes with
  | some taken => .ok taken
  | none => .error (text "exchange state is truncated")

def takeIf (present : Bool) (bytes : Bytes) : Except Text (Option Bytes × Bytes) :=
  if present then do
    let (chunk, rest) ← take bytes
    .ok (some chunk, rest)
  else .ok (none, bytes)

def isSet (flags bit : UInt8) : Bool :=
  flags &&& bit ≠ 0

/-- The chunks behind the fixed head. -/
def deserializeChunks (flags : UInt8) (maxWorkers : Nat) (bytes : Bytes) :
    Except Text ExchangeFrame := do
  let (functionName, bytes) ← take bytes
  let (initRequestPacked, bytes) ← take bytes
  let (executionId, bytes) ← take bytes
  let (opaqueData, bytes) ← takeIf (isSet flags 2) bytes
  let (userState, bytes) ← takeIf (isSet flags 4) bytes
  let (filterHistory, bytes) ← takeIf (isSet flags 8) bytes
  if bytes ≠ [] then .error (text "exchange state has trailing bytes")
  else
    .ok
      { functionName
        initRequestPacked
        executionId
        maxWorkers := UInt64.ofNat maxWorkers
        opaqueData
        userState
        filterHistory
        isProducer := isSet flags 1
        morePending := isSet flags 16 }

def deserialize (bytes : Bytes) : Except Text ExchangeFrame :=
  match bytes with
  | version :: flags :: rest =>
      match takeInt 8 rest with
      | some (maxWorkers, rest) =>
          if version = stateFormatVersion then deserializeChunks flags maxWorkers rest
          else
            .error (text "exchange state has an unknown format (minted by another build of " ++
              text "this worker?)")
      | none =>
          .error (text "exchange state has an unknown format (minted by another build of " ++
            text "this worker?)")
  | _ =>
      .error (text "exchange state has an unknown format (minted by another build of this worker?)")

/-! ## What a frame carries -/

theorem isSet_flags (frame : ExchangeFrame) :
    isSet frame.flags 1 = frame.isProducer ∧ isSet frame.flags 2 = frame.opaqueData.isSome ∧
      isSet frame.flags 4 = frame.userState.isSome ∧
      isSet frame.flags 8 = frame.filterHistory.isSome ∧
      isSet frame.flags 16 = frame.morePending := by
  have each : ∀ producer opaqueData userState filterHistory morePending : Bool,
      let flags := flag producer 1 ||| flag opaqueData 2 ||| flag userState 4 |||
        flag filterHistory 8 ||| flag morePending 16
      isSet flags 1 = producer ∧ isSet flags 2 = opaqueData ∧ isSet flags 4 = userState ∧
        isSet flags 8 = filterHistory ∧ isSet flags 16 = morePending := by
    decide
  exact each _ _ _ _ _

private theorem take_putChunk (chunk rest : Bytes) (bound : chunk.length < 256 ^ 4) :
    take (putChunk 4 chunk ++ rest) = .ok (chunk, rest) := by
  rw [take, takeChunk_putChunk 4 chunk rest bound]

private theorem takeIf_putChunk (chunk : Option Bytes) (rest : Bytes)
    (bound : ∀ held ∈ chunk, held.length < 256 ^ 4) :
    takeIf chunk.isSome (chunk.toList.flatMap (putChunk 4) ++ rest) = .ok (chunk, rest) := by
  cases chunk with
  | none => rfl
  | some held =>
      simp only [takeIf, Option.isSome_some, if_true, Option.toList_some, List.flatMap_cons,
        List.flatMap_nil, List.append_nil]
      rw [take_putChunk held rest (bound held rfl), except_ok_bind]

/-- A frame whose fields are shorter than 4 GiB reads back. -/
theorem deserialize_serialize (frame : ExchangeFrame)
    (bounds : ∀ chunk ∈ frame.chunks, chunk.length < 256 ^ 4) :
    deserialize frame.serialize = .ok frame := by
  obtain ⟨producer, opaqueData, userState, filterHistory, morePending⟩ := isSet_flags frame
  have workers : frame.maxWorkers.toNat < 256 ^ 8 := frame.maxWorkers.toNat_lt
  simp only [chunks, List.mem_append, List.mem_cons, Option.mem_toList, List.not_mem_nil,
    or_false] at bounds
  simp only [serialize, deserialize]
  rw [takeInt_leBytes_of_lt 8 _ _ workers]
  simp only [if_true, deserializeChunks, chunks, List.flatMap_append, List.flatMap_cons,
    List.flatMap_nil, List.append_nil, List.append_assoc]
  rw [take_putChunk _ _ (bounds _ (by simp)), except_ok_bind,
    take_putChunk _ _ (bounds _ (by simp)), except_ok_bind,
    take_putChunk _ _ (bounds _ (by simp)), except_ok_bind, opaqueData,
    takeIf_putChunk _ _ (fun held member => bounds held (by simp_all)), except_ok_bind, userState,
    takeIf_putChunk _ _ (fun held member => bounds held (by simp_all)), except_ok_bind]
  have last := takeIf_putChunk frame.filterHistory [] fun held member => bounds held (by simp_all)
  rw [List.append_nil] at last
  rw [filterHistory, last, except_ok_bind, producer, morePending]
  simp

private theorem isSome_of_takeIf (present : Bool) (bytes rest : Bytes) (chunk : Option Bytes)
    (taken : takeIf present bytes = .ok (chunk, rest)) : chunk.isSome = present := by
  unfold takeIf at taken
  split at taken
  · rename_i isPresent
    obtain ⟨_, _, taken⟩ := except_bind_ok _ _ _ taken
    cases taken
    rw [isPresent]
    rfl
  · rename_i absent
    cases taken
    simp only [Bool.not_eq_true] at absent
    rw [absent]
    rfl

/-- The flags do not depend on the lengths: whatever reads back has them. -/
theorem flags_of_deserialize (frame restored : ExchangeFrame)
    (success : deserialize frame.serialize = .ok restored) :
    restored.morePending = frame.morePending ∧
      restored.userState.isSome = frame.userState.isSome := by
  obtain ⟨_, _, userState, _, morePending⟩ := isSet_flags frame
  have workers : frame.maxWorkers.toNat < 256 ^ 8 := frame.maxWorkers.toNat_lt
  simp only [serialize, deserialize] at success
  rw [takeInt_leBytes_of_lt 8 _ _ workers] at success
  simp only [if_true, deserializeChunks] at success
  obtain ⟨_, _, success⟩ := except_bind_ok _ _ _ success
  obtain ⟨_, _, success⟩ := except_bind_ok _ _ _ success
  obtain ⟨_, _, success⟩ := except_bind_ok _ _ _ success
  obtain ⟨_, _, success⟩ := except_bind_ok _ _ _ success
  obtain ⟨_, taken, success⟩ := except_bind_ok _ _ _ success
  obtain ⟨_, _, success⟩ := except_bind_ok _ _ _ success
  split at success
  · cases success
  · cases success
    exact ⟨morePending, (isSome_of_takeIf _ _ _ _ taken).trans userState⟩

end ExchangeFrame

end VgiWorker.Protocol
