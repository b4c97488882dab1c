import VgiWorker.Crypto.SplitTokenProperties
import VgiWorker.Protocol.CarriedInit
import VgiWorker.Protocol.SplitPlans

/-!
# The request a continuation rebuilds from

A continuation turn recovers the init request byte for byte and redeems the same
payloads. It hands the attach value on as the client sent it, where the init
turn has opened it. Whatever a process was asked before, and whatever its memo has lost in
between, the request of a stream is the one that the stream's own bytes hold.
-/

set_option autoImplicit false

namespace VgiWorker.Protocol

open VgiWorker.Js VgiWorker.Crypto

/-! ## The packed bytes -/

/-- One zstd reads what another wrote. -/
def Lossless (compressing decompressing : Option ZstdCodec) : Prop :=
  ∀ writer ∈ compressing, ∀ reader ∈ decompressing, ∀ ipc,
    reader.decompress (writer.compress ipc) = .ok ipc

theorem unpack_pack (compressing decompressing : Option ZstdCodec)
    (lossless : Lossless compressing decompressing) (ipc unpacked : Bytes)
    (success : unpackInitRequest decompressing (packInitRequest compressing ipc) = .ok unpacked) :
    unpacked = ipc := by
  cases compressing with
  | none =>
      cases success
      rfl
  | some writer =>
      simp only [packInitRequest] at success
      split at success
      · cases decompressing with
        | none => cases success
        | some reader =>
            have restored := lossless writer rfl reader rfl ipc
            have read : reader.decompress (writer.compress ipc) = .ok unpacked := success
            rw [restored] at read
            cases read
            rfl
      · cases success
        rfl

theorem cursorAfter_packed (zstd : Option ZstdCodec) (turn : InitTurn) (requestIpc : Bytes)
    (served : List (Option ZstdCodec)) :
    (cursorAfter zstd turn requestIpc served).initRequestPacked =
      packInitRequest zstd requestIpc := by
  have carried : ∀ (runtimes : List (Option ZstdCodec)) (cursor : Cursor),
      (runtimes.foldl (fun cursor runtime => cursor.deserialize.serialize runtime)
        cursor).initRequestPacked = cursor.initRequestPacked := by
    intro runtimes
    induction runtimes with
    | nil => exact fun _ => rfl
    | cons runtime rest ih => exact fun cursor => ih _
  exact carried served _

/-- What a process parses for a stream is the request of the stream's own bytes, whatever it was
asked before. -/
theorem carried_eq (readInit : Bytes → Except Text WireInit) (requestIpc : Bytes) (wire : WireInit)
    (received : readInit requestIpc = .ok wire) (turn : InitTurn) (initZstd zstd : Option ZstdCodec)
    (lossless : Lossless initZstd zstd) (served : List (Option ZstdCodec)) (asked : List Bytes)
    (carried : WireInit)
    (parsed : (parseCarriedInitRequest readInit zstd
      (CheckedMemo.after hashBytes (parsePacked readInit zstd) maxEntries asked)
      (cursorAfter initZstd turn requestIpc served).initRequestPacked).1 = .ok carried) :
    carried = wire := by
  unfold parseCarriedInitRequest at parsed
  rw [CheckedMemo.ask_after, cursorAfter_packed] at parsed
  obtain ⟨ipc, unpacked, read⟩ := except_bind_ok _ _ _ parsed
  rw [unpack_pack initZstd zstd lossless requestIpc ipc unpacked, received] at read
  cases read
  rfl

/-! ## The split payloads -/

/-- A token that passed the anchor check opens the same without it. -/
theorem openSplitToken_unanchored (crypto : Primitives) (token payload : Bytes)
    (presented : SplitTokenPresented) (opened : openSplitToken crypto token presented = .ok payload) :
    openSplitToken crypto token { presented with currentAnchor := none } = .ok payload := by
  obtain ⟨fingerprint, anchor, rest, length, bound, rfl, matching, _, body⟩ :=
    openSplitToken_ok crypto token presented payload opened
  have opens := openSplitToken_body crypto fingerprint anchor rest
    { presented with currentAnchor := none } length bound
  refine opens.trans ?_
  have unbound : checkSplitBinding fingerprint anchor { presented with currentAnchor := none } =
      .ok () := (checkSplitBinding_ok _ _ _).mpr ⟨matching, nofun⟩
  rw [unbound, except_ok_bind]
  exact body

private theorem payloads_unanchored (crypto : Primitives) (tokens payloads : List Bytes)
    (presented : SplitTokenPresented)
    (admitted : tokens.mapM (fun token => redeemed (openSplitToken crypto token presented)) =
      .ok payloads) :
    tokens.mapM (fun token => redeemed (openSplitToken crypto token
      { presented with currentAnchor := none })) = .ok payloads := by
  refine (except_mapM_iff _ _ _).mpr (((except_mapM_iff _ _ _).mp admitted).imp ?_)
  intro token payload opened
  exact (redeemed_ok _ _).mpr
    (openSplitToken_unanchored crypto token payload presented ((redeemed_ok _ _).mp opened))

/-! ## The attach value -/

/-- An attach value that carries no framework UUID and no envelope. -/
def NothingToStrip (signingKey : Option Bytes) : Option Bytes → Prop
  | none => True
  | some envelope => envelope = [] ∨ signingKey = none ∧ envelope.length < attachUuidLength

theorem stripAttach_eq_iff (crypto : Primitives) (lawful : LawfulAead crypto)
    (config : FunctionHandlerConfig) (attach opened : Option Bytes) (scope : CallScope)
    (success : stripAttach crypto config attach scope = .ok opened) :
    opened = attach ↔ NothingToStrip config.signingKey attach := by
  cases attach with
  | none =>
      cases success
      exact ⟨fun _ => trivial, fun _ => rfl⟩
  | some envelope =>
      simp only [stripAttach] at success
      split at success
      · rename_i empty
        cases success
        exact ⟨fun _ => Or.inl empty, fun _ => rfl⟩
      · rename_i nonempty
        obtain ⟨plain, openedTo, success⟩ := except_bind_ok _ _ _ success
        cases success
        obtain ⟨full, unsealed, stripped⟩ := except_bind_ok _ _ _ openedTo
        cases stripped
        rw [Option.some.injEq]
        simp only [NothingToStrip, nonempty, false_or]
        cases key : config.signingKey with
        | none =>
            rw [key] at unsealed
            cases unsealed
            simp only [true_and]
            exact stripUuid_eq_iff envelope
        | some signingKey =>
            rw [key, openAttachFull, if_neg nonempty] at unsealed
            have lengths := length_of_openBytes crypto lawful _ _ _ _ _ _ unsealed
            have shorter := length_stripUuid_le full
            refine ⟨fun same => ?_, fun unsigned => by cases unsigned.1⟩
            have sameLength := congrArg List.length same
            simp only [minEnvelopeLength] at lengths
            omega

/-! ## The rebuilt request -/

section

variable (crypto : Primitives) (fingerprintInputs : Bytes → Except Text ScanBind)

/-- Redeeming the splits leaves the bind call. -/
theorem resolveSplitPayloads_bindCall (config : FunctionHandlerConfig) (request : InitRequest)
    (bindCallIpc : Bytes) (auth : Option AuthContext) (checkAnchor : Bool) (resolved : InitRequest)
    (success : resolveSplitPayloads crypto fingerprintInputs config request bindCallIpc auth
      checkAnchor = .ok resolved) : resolved.bindCall = request.bindCall := by
  cases tokens : request.splitTokens with
  | none =>
      simp only [resolveSplitPayloads, tokens] at success
      cases success
      rfl
  | some presented =>
      simp only [resolveSplitPayloads, tokens] at success
      obtain ⟨_, _, success⟩ := except_bind_ok _ _ _ success
      obtain ⟨_, _, success⟩ := except_bind_ok _ _ _ success
      cases success
      rfl

/-- What both turns derive from one parsed request: they differ in the attach value only. -/
private theorem resolved_requests (initConfig config : FunctionHandlerConfig) (wire : WireInit)
    (caller : Option AuthContext) (sameKey : config.signingKey = initConfig.signingKey)
    (attach : Option Bytes) (atInit again : InitRequest)
    (resolved : resolveSplitPayloads crypto fingerprintInputs initConfig
      (wire.request.withAttach attach) wire.bindCallIpc caller true = .ok atInit)
    (rebuilt : resolveSplitPayloads crypto fingerprintInputs config wire.request wire.bindCallIpc
      caller false = .ok again) :
    atInit = again.withAttach attach ∧
      again.bindCall.attachOpaqueData = wire.request.bindCall.attachOpaqueData := by
  have sameTokens : (wire.request.withAttach attach).splitTokens = wire.request.splitTokens := rfl
  cases tokens : wire.request.splitTokens with
  | none =>
      simp only [resolveSplitPayloads, sameTokens, tokens] at resolved rebuilt
      cases resolved
      cases rebuilt
      exact ⟨rfl, rfl⟩
  | some presented =>
      simp only [resolveSplitPayloads, sameTokens, tokens] at resolved rebuilt
      obtain ⟨scan, read, resolved⟩ := except_bind_ok _ _ _ resolved
      obtain ⟨payloads, opened, resolved⟩ := except_bind_ok _ _ _ resolved
      obtain ⟨scan', read', rebuilt⟩ := except_bind_ok _ _ _ rebuilt
      obtain ⟨payloads', opened', rebuilt⟩ := except_bind_ok _ _ _ rebuilt
      have sameScan := read.symm.trans read'
      cases sameScan
      have unanchored := payloads_unanchored crypto presented payloads _ opened
      rw [← sameKey] at unanchored
      have samePayloads := unanchored.symm.trans opened'
      cases samePayloads
      cases resolved
      cases rebuilt
      exact ⟨rfl, rfl⟩

/-- A continuation turn of any process, after any turns, rebuilds the request of the init turn
exactly when the attach value carries no framework UUID and no envelope. -/
theorem rebuilt_request_eq_iff (lawful : LawfulAead crypto)
    (readInit : Bytes → Except Text WireInit) (initConfig config : FunctionHandlerConfig)
    (sameKey : config.signingKey = initConfig.signingKey) (caller : Option AuthContext)
    (requestIpc : Bytes) (wire : WireInit) (received : readInit requestIpc = .ok wire)
    (turn : InitTurn)
    (started : initTurn crypto fingerprintInputs initConfig wire (CallScope.stream caller) = .ok turn)
    (initZstd zstd : Option ZstdCodec) (lossless : Lossless initZstd zstd)
    (served : List (Option ZstdCodec)) (asked : List Bytes) (rebuilt : InitTurn)
    (continued : rebuildTurn crypto fingerprintInputs readInit config zstd
      (CheckedMemo.after hashBytes (parsePacked readInit zstd) maxEntries asked)
      (cursorAfter initZstd turn requestIpc served) (CallScope.stream caller) = .ok rebuilt) :
    rebuilt.request = turn.request ↔
      NothingToStrip config.signingKey wire.request.bindCall.attachOpaqueData := by
  obtain ⟨admitted, admits, started⟩ := except_bind_ok _ _ _ started
  obtain ⟨_, _, started⟩ := except_bind_ok _ _ _ started
  obtain ⟨_, _, started⟩ := except_bind_ok _ _ _ started
  cases started
  obtain ⟨attach, stripped, resolved⟩ := except_bind_ok _ _ _ admits
  obtain ⟨carried, parsed, continued⟩ := except_bind_ok _ _ _ continued
  obtain ⟨again, redeems, continued⟩ := except_bind_ok _ _ _ continued
  obtain ⟨_, _, continued⟩ := except_bind_ok _ _ _ continued
  cases continued
  have carriedIs := carried_eq readInit requestIpc wire received _ initZstd zstd lossless served
    asked carried ((thrown_ok _ _).mp parsed)
  subst carriedIs
  obtain ⟨atInit, attachKept⟩ := resolved_requests crypto fingerprintInputs initConfig config carried
    caller sameKey attach _ again resolved redeems
  rw [sameKey, ← stripAttach_eq_iff crypto lawful initConfig _ attach _
    ((refused_ok _ _).mp stripped), ← attachKept]
  change again = admitted ↔ _
  rw [atInit]
  constructor
  · intro same
    exact (congrArg (fun request => request.bindCall.attachOpaqueData) same).symm
  · rintro rfl
    rfl

end

/-! ## Samples -/

def sampleWire (attach : Option Bytes) : WireInit :=
  ⟨sampleInitRequest (sampleBindRequest attach none), []⟩

def sampleTurn (attach : Option Bytes) : InitTurn :=
  ⟨sampleFunction, (sampleWire attach).request, ⟨Number.zero, [], none⟩⟩

/-- A sealed attach of a catalog whose own value is one byte. -/
def sampleEnvelope : Bytes :=
  (sampleMinted (some sampleKey) [0]).attachEnvelope taggingAead

/-- An attach value without an envelope, and one in an envelope. -/
theorem rebuilt_request_eq_iff_sample :
    ((sampleTurn (some [9])).request = (sampleTurn (some [9])).request ↔
        NothingToStrip none (some [9])) ∧
      ((sampleTurn (some sampleEnvelope)).request = (sampleTurn (some [0])).request ↔
        NothingToStrip (some sampleKey) (some sampleEnvelope)) :=
  ⟨rebuilt_request_eq_iff taggingAead sampleInputs taggingAead_lawful
      (fun _ => .ok (sampleWire (some [9]))) ⟨sampleRegistry, none, none⟩
      ⟨sampleRegistry, none, none⟩ rfl (some ⟨true, some (text "jwt"), some (text "alice")⟩)
      [1, 2, 3] (sampleWire (some [9])) rfl (sampleTurn (some [9])) rfl none none nofun [none] []
      (sampleTurn (some [9])) rfl,
    rebuilt_request_eq_iff taggingAead sampleInputs taggingAead_lawful
      (fun _ => .ok (sampleWire (some sampleEnvelope))) ⟨sampleRegistry, some sampleKey, none⟩
      ⟨sampleRegistry, some sampleKey, none⟩ rfl (sampleMinted (some sampleKey) [0]).caller
      [1, 2, 3] (sampleWire (some sampleEnvelope)) rfl (sampleTurn (some [0])) rfl none none nofun
      [none] [] (sampleTurn (some sampleEnvelope)) rfl⟩

/-- The first continuation turn hands on the envelope. -/
theorem continuation_presents_envelope : ∃ (minted : MintedBind) (turn rebuilt : InitTurn),
    initTurn taggingAead sampleInputs ⟨sampleRegistry, minted.signingKey, none⟩
        (sampleWire (some (minted.attachEnvelope taggingAead))) (CallScope.stream minted.caller) =
          .ok turn ∧
      rebuildTurn taggingAead sampleInputs
        (fun _ => .ok (sampleWire (some (minted.attachEnvelope taggingAead))))
        ⟨sampleRegistry, minted.signingKey, none⟩ none [] (cursorAfter none turn [1, 2, 3] [])
        (CallScope.stream minted.caller) = .ok rebuilt ∧
      turn.request.bindCall.attachOpaqueData = some minted.attach ∧
      rebuilt.request.bindCall.attachOpaqueData = some (minted.attachEnvelope taggingAead) ∧
      rebuilt.request ≠ turn.request := by
  refine ⟨sampleMinted (some sampleKey) [0], sampleTurn (some [0]),
    sampleTurn (some ((sampleMinted (some sampleKey) [0]).attachEnvelope taggingAead)),
    rfl, rfl, rfl, rfl, ?_⟩
  intro same
  have attaches := congrArg (fun request => request.bindCall.attachOpaqueData) same
  revert attaches
  change some ((sampleMinted (some sampleKey) [0]).attachEnvelope taggingAead) ≠ some [0]
  decide +kernel

/-! ## The memo over a run -/

abbrev MemoTurn := CheckedMemo.Turn UInt32 Bytes

section

variable (readInit : Bytes → Except Text WireInit) (zstd : Option ZstdCodec)

/-- The parses that a process gives in turn, with what its memo holds at the end. -/
def memoRun (turns : List MemoTurn) : List (Except Text WireInit) × ParseMemo :=
  CheckedMemo.run hashBytes (parsePacked readInit zstd) maxEntries [] turns

private theorem unpack_packed (lossless : Lossless zstd zstd) (ipc : Bytes) :
    unpackInitRequest zstd (packInitRequest zstd ipc) = .ok ipc := by
  cases unpacked : unpackInitRequest zstd (packInitRequest zstd ipc) with
  | ok result => rw [unpack_pack zstd zstd lossless ipc result unpacked]
  | error fault =>
      cases zstd with
      | none => cases unpacked
      | some codec =>
          simp only [packInitRequest] at unpacked
          split at unpacked
          · have restored := lossless codec rfl codec rfl ipc
            have read : codec.decompress (codec.compress ipc) = .error fault := unpacked
            rw [restored] at read
            cases read
          · cases unpacked

/-- Over any run of parses and evictions each parse is that of its own bytes, no more streams are
kept than the limit at any time, and packed bytes are parsed as the bytes they were packed from. -/
theorem carried_memo_transparent (lossless : Lossless zstd zstd) (turns : List MemoTurn) :
    (memoRun readInit zstd turns).1 =
        (CheckedMemo.questions turns).map (parsePacked readInit zstd) ∧
      (∀ count, (memoRun readInit zstd (turns.take count)).2.length ≤ maxEntries) ∧
      ∀ ipc, unpackInitRequest zstd (packInitRequest zstd ipc) = .ok ipc ∧
        parsePacked readInit zstd (packInitRequest zstd ipc) = readInit ipc := by
  have sound (some : List MemoTurn) :=
    CheckedMemo.run_sound hashBytes (parsePacked readInit zstd) maxEntries [] (by decide)
      (fun _ member => absurd member List.not_mem_nil) (Nat.zero_le _) some
  refine ⟨(sound turns).1, fun count => (sound (turns.take count)).2.2, fun ipc => ?_⟩
  have unpacked := unpack_packed zstd lossless ipc
  exact ⟨unpacked, by rw [parsePacked, unpacked, except_ok_bind]⟩

end

/-- A request is the same before and after the memo has lost it. -/
theorem carried_memo_after_loss :
    let turns := [.ask (packInitRequest none [1, 2, 3]), .evict fun _ => false,
      .ask (packInitRequest none [1, 2, 3])]
    (memoRun (fun _ => .ok (sampleWire none)) none turns).1 =
      [.ok (sampleWire none), .ok (sampleWire none)] :=
  (carried_memo_transparent (fun _ => .ok (sampleWire none)) none nofun
    [.ask (packInitRequest none [1, 2, 3]), .evict fun _ => false,
      .ask (packInitRequest none [1, 2, 3])]).1

end VgiWorker.Protocol
