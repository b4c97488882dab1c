import VgiWorker.FilterPushdown.HistoryCodec
import VgiWorker.Js.TextDecoder
import VgiWorker.Protocol.StateFrame

/-!
# The exchange state through its frame

What one turn of an HTTP stream leaves and the next one reads. A frame
delimits itself, whatever its fields hold.
-/

set_option autoImplicit false

namespace VgiWorker.Protocol

open VgiWorker.Js VgiWorker.SelfDelimiting VgiWorker.FilterPushdown

namespace ExchangeFrame

/-! ## Frames cut short or extended -/

private def truncated : Text := text "exchange state is truncated"

private def trailingBytes : Text := text "exchange state has trailing bytes"

private theorem take_reader : take = orThrow truncated (takeChunk 4) := by
  funext bytes
  unfold take orThrow truncated
  cases takeChunk 4 bytes <;> rfl

private theorem delimits_take (chunk : Bytes) (bound : chunk.length < 256 ^ 4) :
    Delimits take (putChunk 4 chunk) chunk := by
  rw [take_reader]
  exact delimits_takeChunk _ 4 chunk bound

private theorem delimits_takeIf (chunk : Option Bytes) (present : Bool)
    (held : chunk.isSome = present) (bound : ∀ bytes ∈ chunk, bytes.length < 256 ^ 4) :
    Delimits (takeIf present) (chunk.toList.flatMap (putChunk 4)) chunk := by
  subst held
  cases chunk with
  | none => exact delimits_done none
  | some bytes =>
      have taken := (delimits_take bytes (bound bytes rfl)).andThen
        (f := fun chunk => done (some chunk)) (delimits_done (some bytes))
      rw [List.append_nil] at taken
      rw [Option.toList_some, List.flatMap_singleton]
      exact taken

/-- The chunks behind the fixed head, as a reader. -/
def takeFields (flags : UInt8) (maxWorkers : Nat) : Reader UInt8 Text ExchangeFrame :=
  andThen take fun functionName =>
    andThen take fun initRequestPacked =>
      andThen take fun executionId =>
        andThen (takeIf (isSet flags 2)) fun opaqueData =>
          andThen (takeIf (isSet flags 4)) fun userState =>
            andThen (takeIf (isSet flags 8)) fun filterHistory =>
              done
                { functionName
                  initRequestPacked
                  executionId
                  maxWorkers := UInt64.ofNat maxWorkers
                  opaqueData
                  userState
                  filterHistory
                  isProducer := isSet flags 1
                  morePending := isSet flags 16 }

private theorem deserializeChunks_reader (flags : UInt8) (maxWorkers : Nat) (bytes : Bytes) :
    deserializeChunks flags maxWorkers bytes =
      exactly trailingBytes (takeFields flags maxWorkers) bytes := by
  unfold deserializeChunks exactly takeFields andThen done
  cases take bytes with
  | error failure => rfl
  | ok name =>
      simp only [except_ok_bind]
      cases take name.2 with
      | error failure => rfl
      | ok initRequest =>
          simp only [except_ok_bind]
          cases take initRequest.2 with
          | error failure => rfl
          | ok execution =>
              simp only [except_ok_bind]
              cases takeIf (isSet flags 2) execution.2 with
              | error failure => rfl
              | ok opaqueData =>
                  simp only [except_ok_bind]
                  cases takeIf (isSet flags 4) opaqueData.2 with
                  | error failure => rfl
                  | ok userState =>
                      simp only [except_ok_bind]
                      cases takeIf (isSet flags 8) userState.2 with
                      | error failure => rfl
                      | ok filterHistory =>
                          cases left : filterHistory.2 with
                          | nil => simp [left]
                          | cons byte rest => simp [left, trailingBytes]

private theorem delimits_takeFields (frame : ExchangeFrame)
    (bounds : ∀ chunk ∈ frame.chunks, chunk.length < 256 ^ 4) :
    Delimits (takeFields frame.flags frame.maxWorkers.toNat)
      (frame.chunks.flatMap (putChunk 4)) frame := by
  obtain ⟨producer, opaqueData, userState, filterHistory, morePending⟩ := isSet_flags frame
  simp only [chunks, List.mem_append, List.mem_cons, Option.mem_toList, List.not_mem_nil,
    or_false] at bounds
  have last := (delimits_takeIf frame.filterHistory _ filterHistory.symm
    fun bytes member => bounds bytes (by simp_all)).andThen
      (f := fun filterHistory => done { frame with filterHistory }) (delimits_done frame)
  have userLast := (delimits_takeIf frame.userState _ userState.symm
    fun bytes member => bounds bytes (by simp_all)).andThen (f := fun userState =>
      andThen (takeIf (isSet frame.flags 8)) fun filterHistory =>
        done { frame with userState, filterHistory }) last
  have opaqueLast := (delimits_takeIf frame.opaqueData _ opaqueData.symm
    fun bytes member => bounds bytes (by simp_all)).andThen (f := fun opaqueData =>
      andThen (takeIf (isSet frame.flags 4)) fun userState =>
        andThen (takeIf (isSet frame.flags 8)) fun filterHistory =>
          done { frame with opaqueData, userState, filterHistory }) userLast
  unfold takeFields
  simp only [producer, morePending, UInt64.ofNat_toNat, chunks, List.flatMap_append,
    List.flatMap_cons, List.flatMap_nil, List.append_nil, List.append_assoc]
  rw [List.append_nil] at opaqueLast
  exact (delimits_take _ (bounds _ (by simp))).andThen
    ((delimits_take _ (bounds _ (by simp))).andThen
      ((delimits_take _ (bounds _ (by simp))).andThen opaqueLast))

theorem deserialize_cut (frame : ExchangeFrame)
    (bounds : ∀ chunk ∈ frame.chunks, chunk.length < 256 ^ 4) (kept : Bytes)
    (isPrefix : kept <+: frame.serialize) (shorter : kept ≠ frame.serialize) :
    Refuses (deserialize kept) := by
  have workers : frame.maxWorkers.toNat < 256 ^ 8 := frame.maxWorkers.toNat_lt
  match kept with
  | [] => exact ⟨_, rfl⟩
  | [_] => exact ⟨_, rfl⟩
  | version :: flags :: kept =>
      obtain ⟨rfl, afterVersion⟩ := List.cons_prefix_cons.mp isPrefix
      obtain ⟨rfl, afterFlags⟩ := List.cons_prefix_cons.mp afterVersion
      have shorterRest : kept ≠ leBytes 8 frame.maxWorkers.toNat ++
          frame.chunks.flatMap (putChunk 4) := fun whole => shorter (by rw [whole]; rfl)
      rcases cut_append kept _ _ afterFlags shorterRest with
        ⟨within, short⟩ | ⟨rest, rfl, restPrefix, restShorter⟩
      · have missing := length_lt_of_cut kept _ within short
        rw [length_leBytes] at missing
        simp only [deserialize, takeInt_short 8 kept missing]
        exact ⟨_, rfl⟩
      · simp only [deserialize, takeInt_leBytes_of_lt 8 _ _ workers, if_true,
          deserializeChunks_reader]
        exact (delimits_takeFields frame bounds).exactly_cut _ rest restPrefix restShorter

theorem deserialize_extended (frame : ExchangeFrame)
    (bounds : ∀ chunk ∈ frame.chunks, chunk.length < 256 ^ 4) (extra : Bytes)
    (nonempty : extra ≠ []) : Refuses (deserialize (frame.serialize ++ extra)) := by
  have workers : frame.maxWorkers.toNat < 256 ^ 8 := frame.maxWorkers.toNat_lt
  simp only [serialize, List.cons_append, List.append_assoc, deserialize,
    takeInt_leBytes_of_lt 8 _ _ workers, if_true, deserializeChunks_reader]
  exact (delimits_takeFields frame bounds).exactly_extended _ extra nonempty

end ExchangeFrame

/-! ## The state -/

/-- The state of a turn, its init request packed. -/
structure ExchangeState (User : Type) where
  functionName : Text
  initRequestPacked : Bytes
  executionId : Bytes
  maxWorkers : UInt64
  opaqueData : Option Bytes
  userState : User
  filterHistory : Option FilterDeltaHistory
  isProducer : Bool
  morePending : Bool

namespace ExchangeState

variable {User : Type}

/-- The frame of a state whose user state has these IPC bytes. -/
def frame (state : ExchangeState User) (userState : Option Bytes) : ExchangeFrame where
  functionName := utf8Encode state.functionName
  initRequestPacked := state.initRequestPacked
  executionId := state.executionId
  maxWorkers := state.maxWorkers
  opaqueData := state.opaqueData
  userState := userState
  filterHistory := encodeFilterHistory state.filterHistory
  isProducer := state.isProducer
  morePending := state.morePending

section

variable (serializeUserState : User → Except Fault (Option Bytes))
  (deserializeUserState : Option Bytes → Except Fault User)

def serialize (state : ExchangeState User) : Except Fault Bytes := do
  let userState ← serializeUserState state.userState
  .ok (state.frame userState).serialize

def deserialize (bytes : Bytes) : Except Fault (ExchangeState User) := do
  let frame ← (ExchangeFrame.deserialize bytes).mapError Fault.error
  let userState ← deserializeUserState frame.userState
  let filterHistory ← decodeFilterHistory frame.filterHistory
  .ok
    { functionName := textDecode frame.functionName
      initRequestPacked := frame.initRequestPacked
      executionId := frame.executionId
      maxWorkers := frame.maxWorkers
      opaqueData := frame.opaqueData
      userState
      filterHistory := some filterHistory
      isProducer := frame.isProducer
      morePending := frame.morePending }

/-- Every section is shorter than the 4 GiB its length field counts. -/
def FitsFrame (state : ExchangeState User) (userState : Option Bytes) : Prop :=
  ∀ chunk ∈ (state.frame userState).chunks, chunk.length < 256 ^ 4

/-- What the token carries of a history: without a delta there is nothing to carry. -/
def carriedHistory (history : Option FilterDeltaHistory) : FilterDeltaHistory :=
  match history with
  | none => emptyFilterHistory
  | some held => if held.deltas = [] then emptyFilterHistory else held

/-- The ids of the history that is carried survive their encoding. -/
def IdsSurvive (history : Option FilterDeltaHistory) : Prop :=
  ∀ id ∈ (carriedHistory history).order, SurvivesUtf8 id

private theorem length_le_flatMap (width : Nat) (chunks : List Bytes) :
    width * chunks.length ≤ (chunks.flatMap (putChunk width)).length ∧
      ∀ chunk ∈ chunks, chunk.length ≤ (chunks.flatMap (putChunk width)).length := by
  induction chunks with
  | nil => exact ⟨Nat.le_refl 0, fun _ member => absurd member List.not_mem_nil⟩
  | cons first rest ih =>
      have whole : ((first :: rest).flatMap (putChunk width)).length =
          width + first.length + (rest.flatMap (putChunk width)).length := by
        rw [List.flatMap_cons, List.length_append, putChunk, List.length_append, length_leBytes]
      refine ⟨?_, fun chunk member => ?_⟩
      · rw [whole, List.length_cons, Nat.mul_succ]
        have counted := ih.1
        omega
      · rw [whole]
        rcases List.mem_cons.mp member with rfl | member
        · omega
        · have inRest := ih.2 chunk member
          omega

/-- The length field of the section bounds what the history's own fields hold. -/
private theorem fitsToken_of_encoded (history : FilterDeltaHistory) (code : Bytes)
    (encoded : encodeFilterHistory (some history) = some code) (bound : code.length < 256 ^ 4) :
    FitsToken history := by
  rw [encodeFilterHistory] at encoded
  split at encoded
  · cases encoded
  · cases encoded
    obtain ⟨few, short⟩ := length_le_flatMap 4 history.deltas
    obtain ⟨fewIds, shortIds⟩ := length_le_flatMap 4 (history.order.map utf8Encode)
    simp only [putChunks, List.length_cons, List.length_append, length_leBytes, List.length_map]
      at bound fewIds
    refine ⟨by omega, fun bytes member => ?_, by omega, fun id member => ?_⟩
    · have length := short bytes member
      omega
    · have length := shortIds _ (List.mem_map_of_mem member)
      rw [utf8Length]
      omega

private theorem decode_carried (state : ExchangeState User) (userState : Option Bytes)
    (fits : state.FitsFrame userState) (survive : IdsSurvive state.filterHistory) :
    decodeFilterHistory (encodeFilterHistory state.filterHistory) =
      .ok (carriedHistory state.filterHistory) := by
  cases isHeld : state.filterHistory with
  | none => rfl
  | some held =>
      by_cases nothing : held.deltas = []
      · rw [encodeFilterHistory, if_pos nothing, carriedHistory, if_pos nothing]
        rfl
      · have carried : carriedHistory (some held) = held := if_neg nothing
        rw [IdsSurvive, isHeld, carried] at survive
        rw [carried]
        cases code : encodeFilterHistory (some held) with
        | none =>
            rw [encodeFilterHistory, if_neg nothing] at code
            cases code
        | some bytes =>
            have isSection : bytes ∈ (state.frame userState).chunks := by
              refine List.mem_append_right _ ?_
              rw [frame, isHeld, code]
              exact List.mem_singleton_self bytes
            have token := fitsToken_of_encoded held bytes code (fits bytes isSection)
            rw [← code]
            exact decodeFilterHistory_encode held nothing token.few token.short token.fewIds
              token.shortIds survive

/-- A frame gives every field of its state back, the history as it is carried, and the user
state reads from its own bytes. Every proper prefix and every extension of a frame is
refused. -/
theorem frame_round_trip (state : ExchangeState User) (userState : Option Bytes)
    (encoded : serializeUserState state.userState = .ok userState)
    (fits : state.FitsFrame userState) :
    ∃ code, state.serialize serializeUserState = .ok code ∧
      (SurvivesUtf8 state.functionName → IdsSurvive state.filterHistory →
        deserialize deserializeUserState code =
          (deserializeUserState userState >>= fun user =>
            .ok { state with
              userState := user
              filterHistory := some (carriedHistory state.filterHistory) })) ∧
      (∀ kept, kept <+: code → kept ≠ code → Refuses (deserialize deserializeUserState kept)) ∧
      ∀ extra, extra ≠ [] → Refuses (deserialize deserializeUserState (code ++ extra)) := by
  have refused : ∀ bytes, Refuses (ExchangeFrame.deserialize bytes) →
      Refuses (deserialize deserializeUserState bytes) := by
    rintro bytes ⟨failure, rejected⟩
    exact ⟨.error failure, by rw [deserialize, rejected]; rfl⟩
  refine ⟨(state.frame userState).serialize, by rw [serialize, encoded]; rfl,
    fun survives ids => ?_, fun kept isPrefix shorter => ?_, fun extra nonempty => ?_⟩
  · have decoded := decode_carried state userState fits ids
    have name : textDecode (utf8Encode state.functionName) = state.functionName := by
      have read := utf8Decode_of_survives _ survives
      rw [utf8Decode_utf8Encode] at read
      exact (textDecode_utf8Encode _).trans (Option.some.inj read)
    rw [deserialize, ExchangeFrame.deserialize_serialize _ fits]
    simp only [Except.mapError, except_ok_bind, frame, decoded, name]
  · exact refused kept (ExchangeFrame.deserialize_cut _ fits kept isPrefix shorter)
  · exact refused _ (ExchangeFrame.deserialize_extended _ fits extra nonempty)

end

/-! ## Samples -/

/-- A state with no user state. -/
def sampleState (functionName : Text) (executionId : Bytes) (history : Option FilterDeltaHistory) :
    ExchangeState Unit where
  functionName := functionName
  initRequestPacked := []
  executionId := executionId
  maxWorkers := 0
  opaqueData := none
  userState := ()
  filterHistory := history
  isProducer := true
  morePending := false

def serializeUnit : Unit → Except Fault (Option Bytes) := fun _ => .ok none

def deserializeUnit : Option Bytes → Except Fault Unit := fun _ => .ok ()

theorem frame_round_trip_sample :
    ∃ code, (sampleState (text "scan") [7] (some ⟨[[1, 2]], [text "p"]⟩)).serialize serializeUnit =
        .ok code ∧
      deserialize deserializeUnit code =
        .ok (sampleState (text "scan") [7] (some ⟨[[1, 2]], [text "p"]⟩)) := by
  have survives : ∀ name ∈ [text "scan", text "p"], SurvivesUtf8 name := by
    intro name member
    rcases List.mem_cons.mp member with rfl | member
    · exact ⟨by decide +kernel, by decide +kernel⟩
    · rw [List.mem_singleton.mp member]
      exact ⟨by decide +kernel, by decide +kernel⟩
  obtain ⟨code, encoded, restored, _⟩ := frame_round_trip serializeUnit deserializeUnit
    (sampleState (text "scan") [7] (some ⟨[[1, 2]], [text "p"]⟩)) none rfl
    (by unfold FitsFrame; decide +kernel)
  refine ⟨code, encoded, restored (survives _ List.mem_cons_self) fun id member => ?_⟩
  exact survives id (List.mem_cons_of_mem _ member)

private theorem whole_section_refused (big : Bytes) (length : big.length = 256 ^ 4) :
    Refuses (ExchangeFrame.deserialize
      ((sampleState (text "scan") big (some emptyFilterHistory)).frame none).serialize) := by
  have wrapped : leBytes 4 (256 ^ 4) = leBytes 4 0 := by decide
  have nonempty : big ≠ [] := by
    rintro rfl
    cases length
  have counted : takeChunk 4 (leBytes 4 0 ++ big) = some ([], big) := by
    rw [takeChunk, takeInt_leBytes_of_lt 4 0 big (by decide)]
    exact takeBytes_append [] big
  have name := takeChunk_putChunk 4 (utf8Encode (text "scan"))
    (putChunk 4 [] ++ (leBytes 4 0 ++ big)) (by decide +kernel)
  have initRequest := takeChunk_putChunk 4 [] (leBytes 4 0 ++ big) (by decide)
  have code : ((sampleState (text "scan") big (some emptyFilterHistory)).frame none).serialize =
      1 :: 1 :: (leBytes 8 0 ++ (putChunk 4 (utf8Encode (text "scan")) ++
        (putChunk 4 [] ++ (leBytes 4 0 ++ big)))) := by
    rw [← wrapped, ← length]
    simp [ExchangeFrame.serialize, ExchangeFrame.chunks, frame, sampleState, putChunk,
      encodeFilterHistory, emptyFilterHistory, ExchangeFrame.flags, ExchangeFrame.flag,
      ExchangeFrame.stateFormatVersion]
  rw [code]
  refine ⟨text "exchange state has trailing bytes", ?_⟩
  simp only [ExchangeFrame.deserialize, takeInt_leBytes_of_lt 8 0 _ (by decide),
    ExchangeFrame.stateFormatVersion, if_true, ExchangeFrame.deserializeChunks,
    ExchangeFrame.take, name, initRequest, counted, except_ok_bind]
  have unset : ExchangeFrame.isSet 1 2 = false ∧ ExchangeFrame.isSet 1 4 = false ∧
      ExchangeFrame.isSet 1 8 = false := by decide
  simp only [unset, ExchangeFrame.takeIf, Bool.false_eq_true, if_false, except_ok_bind]
  exact if_pos nonempty

/-- What reads back of a state, or a refusal. -/
def restored (state : ExchangeState Unit) : Except Fault (ExchangeState Unit) := do
  let code ← state.serialize serializeUnit
  deserialize deserializeUnit code

/-- No history comes back as the empty one, and so does a history with an order but no delta.
A name comes back without its byte order mark, and a frame with a section of 4 GiB not at
all. -/
theorem frames_not_given_back :
    (restored (sampleState (text "scan") [] none)).map
          (fun state => state.filterHistory.map fun held => (held.deltas, held.order)) =
        .ok (some ([], [])) ∧
      (restored (sampleState (text "scan") [] (some ⟨[], [text "p"]⟩))).map
          (fun state => state.filterHistory.map (·.order)) = .ok (some []) ∧
      (restored (sampleState (0xfeff :: text "scan") [] (some emptyFilterHistory))).map
          (·.functionName) = .ok (text "scan") ∧
      Refuses (restored (sampleState (text "scan") (List.replicate (256 ^ 4) 0)
        (some emptyFilterHistory))) := by
  refine ⟨by decide +kernel, by decide +kernel, by decide +kernel, ?_⟩
  obtain ⟨failure, refused⟩ := whole_section_refused (List.replicate (256 ^ 4) 0)
    (List.length_replicate ..)
  refine ⟨.error failure, ?_⟩
  rw [restored, serialize, serializeUnit, except_ok_bind, except_ok_bind, deserialize, refused]
  rfl

end ExchangeState

end VgiWorker.Protocol
