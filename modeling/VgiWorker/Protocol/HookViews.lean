import VgiWorker.Functions.BufferingInit
import VgiWorker.Protocol.RebuiltRequest

/-!
# Attach and transaction values in the hooks

What each hook of a function finds in its call of the values that the catalog
minted. Some handlers open the attach value before they call a hook, the others
hand on what the client presented; no handler opens the transaction value.
-/

set_option autoImplicit false

namespace VgiWorker.Protocol

open VgiWorker.Js VgiWorker.Arrow VgiWorker.Crypto VgiWorker.Functions

/-! ## The handlers -/

structure DynamicToStringRequest where
  bindCall : BindRequest
  bindOpaqueData : Option Bytes
  globalExecutionId : Bytes

structure ProjectionProposal (BindResponse : Type) where
  bindCall : BindRequest
  bindResult : BindResponse
  expressions : List Bytes
  resultSchema : Schema

/-- The call of `table_buffering_process` or `table_buffering_combine`. -/
structure BufferingCall where
  functionName : Text
  executionId : Bytes
  attachOpaqueData : Option Bytes
  transactionId : Option Bytes
  schemaPath : Option (List Text)

structure TableBufferingParams where
  initCall : InitRequest
  executionId : Bytes
  attachId : Bytes
  transactionId : Option Bytes
  functionName : Text

section

variable (crypto : Primitives) (config : FunctionHandlerConfig)

/-- The function of a `bind` call, and the request that its `bind` gets. -/
def bindHandler (request : BindRequest) (scope : CallScope) :
    Except HandlerFault (VgiFunction × BindRequest) := do
  let attach ← refused (stripAttach crypto config request.attachOpaqueData scope)
  let func ← resolveFunction config (request.withAttach attach)
  .ok (func, request.withAttach attach)

/-- A request handed on as it was read, where the function declares the hook. -/
def handOn {Request : Type} (declares : VgiFunction → Bool) (bindCall : BindRequest)
    (request : Request) (scope : CallScope) : Except HandlerFault (Option Request) := do
  let func ← resolveStripped crypto config bindCall ⟨none, scope.currentRequestAuth⟩
  .ok (if declares func then some request else none)

def tableFunctionCardinality (request : TableFunctionCardinalityRequest) (scope : CallScope) :
    Except HandlerFault (Option TableFunctionCardinalityRequest) :=
  handOn crypto config VgiFunction.cardinality request.bindCall request scope

def tableFunctionStatistics (request : TableFunctionCardinalityRequest) (scope : CallScope) :
    Except HandlerFault (Option TableFunctionCardinalityRequest) :=
  handOn crypto config VgiFunction.statistics request.bindCall request scope

def tableFunctionDynamicToString (request : DynamicToStringRequest) (scope : CallScope) :
    Except HandlerFault (Option DynamicToStringRequest) :=
  handOn crypto config VgiFunction.dynamicToString request.bindCall request scope

/-- `validate` are the checks of a proposal. -/
def tableFunctionProjection {BindResponse : Type}
    (validate : ProjectionProposal BindResponse → Except Text Unit)
    (proposal : ProjectionProposal BindResponse) (scope : CallScope) :
    Except HandlerFault (Option (ProjectionProposal BindResponse)) := do
  thrown (validate proposal)
  let func ← resolveStripped crypto config proposal.bindCall ⟨none, scope.currentRequestAuth⟩
  if func.kind = text "table" then .ok (if func.projection then some proposal else none)
  else .error (.error (text "projection requires an ordinary table"))

/-! ## Buffering -/

def resolveBuffering (name : Text) (schemaPath : Option (List Text)) :
    Except HandlerFault VgiFunction := do
  let func ← thrown (config.registry name ⟨.empty, none, false, schemaPath, none⟩)
  if func.kind = text "table_buffering" then .ok func
  else
    .error (.error (text "Function '" ++ name ++ text "' is not a table_buffering function"))

/-- The parameters of `process` and `combine`; `stored` is the payload that the init of an
execution has persisted. -/
def loadParams (runtime : Runtime) (stored : Bytes → Option ByteView) (inner : BufferingCall)
    (scope : CallScope) : Except (HandlerFault ⊕ WireFault) (VgiFunction × TableBufferingParams) := do
  let attach ←
    match inner.attachOpaqueData with
    | none => .ok []
    | some raw =>
        if raw = [] then .ok raw
        else (refused (openAttach crypto raw scope.ctxAuth config.signingKey)).mapError .inl
  let func ← (resolveBuffering config inner.functionName inner.schemaPath).mapError .inl
  match stored inner.executionId with
  | none =>
      .error (.inl (.error (text "table_buffering: unknown execution_id " ++
        inner.executionId.flatMap hexByte ++ text " (init never ran or destructor already fired)")))
  | some payload => do
      let decoded ← (decodeBufferingInit runtime payload).mapError .inr
      .ok (func,
        { initCall := decoded.request
          executionId := inner.executionId
          attachId := attach
          transactionId := inner.transactionId
          functionName := inner.functionName })

end

/-! ## What a hook finds -/

inductive Hook where
  | bind
  | globalInit
  /-- The handlers of a stream, on the init turn and while it stays in memory. -/
  | stream
  /-- The handlers that a continuation turn rebuilds from the token. -/
  | rebuiltStream
  | cardinality
  | statistics
  | plan
  | projection
  | dynamicToString
  /-- `process` and `combine` of a buffering function. -/
  | buffering

/-- The hooks whose handlers open the attach value. -/
def Hook.Opened : Hook → Prop
  | .bind | .globalInit | .stream | .buffering => True
  | _ => False

structure OpaqueView where
  attach : Option Bytes
  transaction : Option Bytes

def BindRequest.view (request : BindRequest) : OpaqueView :=
  ⟨request.attachOpaqueData, request.transactionOpaqueData⟩

/-- What the catalog minted. -/
def MintedBind.view (minted : MintedBind) : OpaqueView :=
  ⟨some minted.attach, minted.transaction⟩

section

variable (crypto : Primitives) (fingerprintInputs : Bytes → Except Text ScanBind)
  (minted : MintedBind)

/-- A hook's view in a call that presents the values as they were minted for its caller. -/
inductive Observed : Hook → OpaqueView → Prop where
  | bind (config : FunctionHandlerConfig) (sameKey : config.signingKey = minted.signingKey)
      (request : BindRequest) (carries : minted.Carries crypto request) (func : VgiFunction)
      (handed : BindRequest)
      (ran : bindHandler crypto config request (CallScope.unary minted.caller) =
        .ok (func, handed)) :
      Observed .bind handed.view
  | globalInit (config : FunctionHandlerConfig) (sameKey : config.signingKey = minted.signingKey)
      (wire : WireInit) (carries : minted.Carries crypto wire.request.bindCall)
      (request : InitRequest)
      (admits : admitInit crypto fingerprintInputs config wire (CallScope.stream minted.caller) =
        .ok request) :
      Observed .globalInit request.bindCall.view
  | stream (config : FunctionHandlerConfig) (sameKey : config.signingKey = minted.signingKey)
      (wire : WireInit) (carries : minted.Carries crypto wire.request.bindCall) (turn : InitTurn)
      (started : initTurn crypto fingerprintInputs config wire (CallScope.stream minted.caller) =
        .ok turn) :
      Observed .stream turn.request.bindCall.view
  | rebuiltStream (config : FunctionHandlerConfig)
      (readInit : Bytes → Except Text WireInit) (requestIpc : Bytes) (wire : WireInit)
      (received : readInit requestIpc = .ok wire)
      (carries : minted.Carries crypto wire.request.bindCall) (turn : InitTurn)
      (initZstd zstd : Option ZstdCodec) (lossless : Lossless initZstd zstd)
      (served : List (Option ZstdCodec)) (asked : List Bytes) (rebuilt : InitTurn)
      (continued : rebuildTurn crypto fingerprintInputs readInit config zstd
        (CheckedMemo.after hashBytes (parsePacked readInit zstd) maxEntries asked)
        (cursorAfter initZstd turn requestIpc served) (CallScope.stream minted.caller) =
          .ok rebuilt) :
      Observed .rebuiltStream rebuilt.request.bindCall.view
  | cardinality (config : FunctionHandlerConfig) (request handed : TableFunctionCardinalityRequest)
      (carries : minted.Carries crypto request.bindCall)
      (ran : tableFunctionCardinality crypto config request (CallScope.unary minted.caller) =
        .ok (some handed)) :
      Observed .cardinality handed.bindCall.view
  | statistics (config : FunctionHandlerConfig) (request handed : TableFunctionCardinalityRequest)
      (carries : minted.Carries crypto request.bindCall)
      (ran : tableFunctionStatistics crypto config request (CallScope.unary minted.caller) =
        .ok (some handed)) :
      Observed .statistics handed.bindCall.view
  | plan (config : FunctionHandlerConfig) (request handed : TableFunctionPlanRequest)
      (carries : minted.Carries crypto request.bindCall)
      (ran : handOn crypto config (fun func => func.plan.isSome) request.bindCall request
        (CallScope.unary minted.caller) = .ok (some handed)) :
      Observed .plan handed.bindCall.view
  | projection {BindResponse : Type} (config : FunctionHandlerConfig)
      (validate : ProjectionProposal BindResponse → Except Text Unit)
      (proposal handed : ProjectionProposal BindResponse)
      (carries : minted.Carries crypto proposal.bindCall)
      (ran : tableFunctionProjection crypto config validate proposal
        (CallScope.unary minted.caller) = .ok (some handed)) :
      Observed .projection handed.bindCall.view
  | dynamicToString (config : FunctionHandlerConfig) (request handed : DynamicToStringRequest)
      (carries : minted.Carries crypto request.bindCall)
      (ran : tableFunctionDynamicToString crypto config request (CallScope.unary minted.caller) =
        .ok (some handed)) :
      Observed .dynamicToString handed.bindCall.view
  | buffering (config : FunctionHandlerConfig) (sameKey : config.signingKey = minted.signingKey)
      (runtime : Runtime) (stored : Bytes → Option ByteView) (inner : BufferingCall)
      (attach : inner.attachOpaqueData = some (minted.attachEnvelope crypto))
      (transaction : inner.transactionId = minted.transactionEnvelope crypto)
      (func : VgiFunction) (params : TableBufferingParams)
      (loaded : loadParams crypto config runtime stored inner (CallScope.unary minted.caller) =
        .ok (func, params)) :
      Observed .buffering ⟨some params.attachId, params.transactionId⟩

/-! ## The handlers that open the attach value -/

variable (config : FunctionHandlerConfig)

private theorem stripAttach_minted (lawful : LawfulAead crypto)
    (sameKey : config.signingKey = minted.signingKey) (scope : CallScope)
    (caller : scope.auth = minted.caller) :
    stripAttach crypto config (some (minted.attachEnvelope crypto)) scope =
      .ok (some minted.attach) := by
  have opened : openAttach crypto (minted.attachEnvelope crypto) minted.caller minted.signingKey =
      .ok minted.attach := openAttach_sealAttach crypto lawful _ _ _ _ _
  simp only [stripAttach]
  rw [if_neg (attachEnvelope_ne_nil crypto minted), caller, sameKey, opened]
  rfl

private theorem bind_view (lawful : LawfulAead crypto)
    (sameKey : config.signingKey = minted.signingKey) (request handed : BindRequest)
    (carries : minted.Carries crypto request) (func : VgiFunction)
    (ran : bindHandler crypto config request (CallScope.unary minted.caller) = .ok (func, handed)) :
    handed.view = ⟨some minted.attach, minted.transactionEnvelope crypto⟩ := by
  obtain ⟨attach, stripped, ran⟩ := except_bind_ok _ _ _ ran
  obtain ⟨_, _, ran⟩ := except_bind_ok _ _ _ ran
  cases ran
  rw [refused_ok, carries.attach, stripAttach_minted crypto minted config lawful sameKey _
    (CallScope.auth_unary _)] at stripped
  cases stripped
  simp only [BindRequest.view, BindRequest.withAttach, carries.transaction]

private theorem admitInit_view (lawful : LawfulAead crypto)
    (sameKey : config.signingKey = minted.signingKey) (wire : WireInit) (request : InitRequest)
    (carries : minted.Carries crypto wire.request.bindCall)
    (admits : admitInit crypto fingerprintInputs config wire (CallScope.stream minted.caller) =
      .ok request) :
    request.bindCall.view = ⟨some minted.attach, minted.transactionEnvelope crypto⟩ := by
  obtain ⟨attach, stripped, resolved⟩ := except_bind_ok _ _ _ admits
  rw [refused_ok, carries.attach, stripAttach_minted crypto minted config lawful sameKey _
    (CallScope.auth_stream _)] at stripped
  cases stripped
  rw [resolveSplitPayloads_bindCall crypto fingerprintInputs config _ _ _ _ _ resolved]
  simp only [BindRequest.view, InitRequest.withAttach, BindRequest.withAttach, carries.transaction]

private theorem loadParams_attach (lawful : LawfulAead crypto)
    (sameKey : config.signingKey = minted.signingKey) (runtime : Runtime)
    (stored : Bytes → Option ByteView) (inner : BufferingCall)
    (attach : inner.attachOpaqueData = some (minted.attachEnvelope crypto)) (func : VgiFunction)
    (params : TableBufferingParams)
    (loaded : loadParams crypto config runtime stored inner (CallScope.unary minted.caller) =
      .ok (func, params)) :
    params.attachId = minted.attach ∧ params.transactionId = inner.transactionId := by
  have opened : openAttach crypto (minted.attachEnvelope crypto) minted.caller minted.signingKey =
      .ok minted.attach := openAttach_sealAttach crypto lawful _ _ _ _ _
  rw [loadParams, attach] at loaded
  simp only [attachEnvelope_ne_nil crypto minted, if_false, CallScope.unary, sameKey, opened]
    at loaded
  obtain ⟨_, found, loaded⟩ := except_bind_ok _ _ _ loaded
  cases found
  obtain ⟨_, _, loaded⟩ := except_bind_ok _ _ _ loaded
  cases payload : stored inner.executionId with
  | none =>
      rw [payload] at loaded
      cases loaded
  | some held =>
      rw [payload] at loaded
      obtain ⟨_, _, loaded⟩ := except_bind_ok _ _ _ loaded
      cases loaded
      exact ⟨rfl, rfl⟩

/-! ## The handlers that do not -/

private theorem handOn_same {Request : Type} (declares : VgiFunction → Bool)
    (bindCall : BindRequest) (request handed : Request) (scope : CallScope)
    (ran : handOn crypto config declares bindCall request scope = .ok (some handed)) :
    handed = request := by
  obtain ⟨func, _, ran⟩ := except_bind_ok _ _ _ ran
  cases declared : declares func <;> simp [declared] at ran
  exact ran.symm

private theorem projection_same {BindResponse : Type}
    (validate : ProjectionProposal BindResponse → Except Text Unit)
    (proposal handed : ProjectionProposal BindResponse) (scope : CallScope)
    (ran : tableFunctionProjection crypto config validate proposal scope = .ok (some handed)) :
    handed = proposal := by
  obtain ⟨_, _, ran⟩ := except_bind_ok _ _ _ ran
  obtain ⟨func, _, ran⟩ := except_bind_ok _ _ _ ran
  split at ran
  · cases declared : func.projection <;> simp [declared] at ran
    exact ran.symm
  · cases ran

private theorem view_of_carries (request : BindRequest) (carries : minted.Carries crypto request) :
    request.view = ⟨some (minted.attachEnvelope crypto), minted.transactionEnvelope crypto⟩ := by
  rw [BindRequest.view, carries.attach, carries.transaction]

/-- What a hook finds: the attach value opened or as it was presented, and the transaction value as it
was presented. -/
private theorem observed_view (lawful : LawfulAead crypto) (hook : Hook) (view : OpaqueView)
    (observed : Observed crypto fingerprintInputs minted hook view) :
    view.transaction = minted.transactionEnvelope crypto ∧
      (hook.Opened → view.attach = some minted.attach) ∧
      (¬hook.Opened → view.attach = some (minted.attachEnvelope crypto)) := by
  have kept (hook : Hook) (handed : BindRequest) (request : BindRequest) (same : handed = request)
      (carries : minted.Carries crypto request) (unopened : ¬hook.Opened) :
      handed.view.transaction = minted.transactionEnvelope crypto ∧
        (hook.Opened → handed.view.attach = some minted.attach) ∧
        (¬hook.Opened → handed.view.attach = some (minted.attachEnvelope crypto)) := by
    rw [same, view_of_carries crypto minted request carries]
    exact ⟨rfl, fun opened => absurd opened unopened, fun _ => rfl⟩
  cases observed with
  | bind config sameKey request carries func handed ran =>
      rw [bind_view crypto minted config lawful sameKey request handed carries func ran]
      exact ⟨rfl, fun _ => rfl, fun unopened => absurd trivial unopened⟩
  | globalInit config sameKey wire carries request admits =>
      rw [admitInit_view crypto fingerprintInputs minted config lawful sameKey wire request carries
        admits]
      exact ⟨rfl, fun _ => rfl, fun unopened => absurd trivial unopened⟩
  | stream config sameKey wire carries turn started =>
      obtain ⟨request, admits, started⟩ := except_bind_ok _ _ _ started
      obtain ⟨_, _, started⟩ := except_bind_ok _ _ _ started
      obtain ⟨_, _, started⟩ := except_bind_ok _ _ _ started
      cases started
      rw [admitInit_view crypto fingerprintInputs minted config lawful sameKey wire request carries
        admits]
      exact ⟨rfl, fun _ => rfl, fun unopened => absurd trivial unopened⟩
  | rebuiltStream config readInit requestIpc wire received carries turn initZstd zstd lossless served
      asked rebuilt continued =>
      obtain ⟨carried, parsed, continued⟩ := except_bind_ok _ _ _ continued
      obtain ⟨request, resolved, continued⟩ := except_bind_ok _ _ _ continued
      obtain ⟨_, _, continued⟩ := except_bind_ok _ _ _ continued
      cases continued
      have carriedIs := carried_eq readInit requestIpc wire received turn initZstd zstd lossless
        served asked carried ((thrown_ok _ _).mp parsed)
      subst carriedIs
      exact kept _ _ _ (resolveSplitPayloads_bindCall crypto fingerprintInputs config _ _ _ _ _
        resolved) carries id
  | cardinality config request handed carries ran =>
      exact kept _ _ _ (congrArg _ (handOn_same crypto config _ _ _ _ _ ran)) carries id
  | statistics config request handed carries ran =>
      exact kept _ _ _ (congrArg _ (handOn_same crypto config _ _ _ _ _ ran)) carries id
  | plan config request handed carries ran =>
      exact kept _ _ _ (congrArg _ (handOn_same crypto config _ _ _ _ _ ran)) carries id
  | projection config validate proposal handed carries ran =>
      exact kept _ _ _ (congrArg _ (projection_same crypto config _ _ _ _ ran)) carries id
  | dynamicToString config request handed carries ran =>
      exact kept _ _ _ (congrArg _ (handOn_same crypto config _ _ _ _ _ ran)) carries id
  | buffering config sameKey runtime stored inner attach transaction func params loaded =>
      obtain ⟨opened, same⟩ := loadParams_attach crypto minted config lawful sameKey runtime stored
        inner attach func params loaded
      exact ⟨same.trans transaction, fun _ => congrArg some opened,
        fun unopened => absurd trivial unopened⟩

/-! ## Presented values are not the minted ones -/

private theorem attachEnvelope_ne (lawful : LawfulAead crypto) :
    minted.attachEnvelope crypto ≠ minted.attach := by
  intro same
  have full := openAttachFull_sealAttach crypto lawful minted.attach minted.caller minted.signingKey
    minted.uuid minted.attachNonce
  have uuid := minted.uuid.length_eq
  have lengths := congrArg List.length same
  rw [MintedBind.attachEnvelope] at lengths
  cases key : minted.signingKey with
  | none =>
      simp only [key, sealAttach, List.length_append, uuid, attachUuidLength] at lengths
      omega
  | some key' =>
      rw [key, openAttachFull, if_neg] at full
      · have sealed := length_of_openBytes crypto lawful _ _ _ _ _ _ full
        simp only [List.length_append, uuid, attachUuidLength] at sealed
        rw [key] at lengths
        omega
      · exact List.cons_ne_nil _ _

private theorem transactionEnvelope_eq_iff (lawful : LawfulAead crypto) :
    minted.transactionEnvelope crypto = minted.transaction ↔
      minted.signingKey = none ∨ minted.transaction = none := by
  rw [MintedBind.transactionEnvelope]
  cases minted.transaction with
  | none => simp
  | some plaintext =>
      cases key : minted.signingKey with
      | none => simp [sealTransaction]
      | some key' =>
          have sealed := length_of_openBytes crypto lawful _ _ _ _ _ (text "transaction_opaque_data")
            (openBytes_sealed crypto lawful plaintext key'
              (transactionAad minted.caller (minted.attachEnvelope crypto))
              transactionEnvelopeVersion minted.transactionNonce (text "transaction_opaque_data"))
          simp only [Option.map_some, sealTransaction, Option.some.injEq, reduceCtorEq, or_self,
            iff_false]
          intro same
          rw [same] at sealed
          simp only [minEnvelopeLength] at sealed
          omega

/-- A hook finds both values as the catalog minted them exactly where its handler opens the attach
value and no transaction value is sealed. -/
theorem hook_sees_minted_iff (lawful : LawfulAead crypto) (hook : Hook) (view : OpaqueView)
    (observed : Observed crypto fingerprintInputs minted hook view) :
    view = minted.view ↔
      hook.Opened ∧ (minted.signingKey = none ∨ minted.transaction = none) := by
  obtain ⟨transaction, opened, unopened⟩ :=
    observed_view crypto fingerprintInputs minted lawful hook view observed
  rw [← transactionEnvelope_eq_iff crypto minted lawful]
  constructor
  · rintro rfl
    refine ⟨?_, transaction.symm⟩
    by_contra closed
    exact attachEnvelope_ne crypto minted lawful (Option.some.inj (unopened closed)).symm
  · rintro ⟨isOpened, plain⟩
    cases view with
    | mk attach held =>
        simp only [MintedBind.view, OpaqueView.mk.injEq]
        exact ⟨opened isOpened, transaction.trans plain⟩

end

/-! ## Samples -/

/-- An attach with a transaction. -/
def mintedInTransaction (signingKey : Option Bytes) : MintedBind :=
  { sampleMinted signingKey [0] with transaction := some [7] }

def sampleBound (minted : MintedBind) (attach : Bytes) : BindRequest :=
  (sampleBindCall minted).withAttach (some attach)

/-- The bind of a keyed worker without a transaction, and the cardinality with one. -/
theorem hook_sees_minted_iff_sample :
    ((sampleBound (sampleMinted (some sampleKey) [0]) [0]).view =
        (sampleMinted (some sampleKey) [0]).view ↔
      Hook.bind.Opened ∧ ((some sampleKey : Option Bytes) = none ∨ (none : Option Bytes) = none)) ∧
    ((sampleBindCall (mintedInTransaction (some sampleKey))).view =
        (mintedInTransaction (some sampleKey)).view ↔
      Hook.cardinality.Opened ∧
        ((some sampleKey : Option Bytes) = none ∨ (some [7] : Option Bytes) = none)) :=
  ⟨hook_sees_minted_iff taggingAead sampleInputs (sampleMinted (some sampleKey) [0])
      taggingAead_lawful .bind _
      (.bind ⟨sampleRegistry, some sampleKey, none⟩ rfl
        (sampleBindCall (sampleMinted (some sampleKey) [0])) ⟨rfl, rfl⟩ sampleFunction
        (sampleBound (sampleMinted (some sampleKey) [0]) [0]) rfl),
    hook_sees_minted_iff taggingAead sampleInputs (mintedInTransaction (some sampleKey))
      taggingAead_lawful .cardinality _
      (.cardinality ⟨sampleRegistry, some sampleKey, none⟩
        ⟨sampleBindCall (mintedInTransaction (some sampleKey)), none⟩
        ⟨sampleBindCall (mintedInTransaction (some sampleKey)), none⟩ ⟨rfl, rfl⟩ rfl)⟩

/-- The cardinality hook finds the framework's UUID before the catalog's bytes, or the whole
envelope; a bind finds its transaction value sealed. -/
theorem hooks_see_envelopes :
    (∀ signingKey ∈ [none, some sampleKey], ∃ handed,
      tableFunctionCardinality taggingAead ⟨sampleRegistry, signingKey, none⟩
          ⟨sampleBindCall (sampleMinted signingKey [0]), none⟩
          (CallScope.unary (sampleMinted signingKey [0]).caller) = .ok (some handed) ∧
        handed.bindCall.attachOpaqueData =
          some ((sampleMinted signingKey [0]).attachEnvelope taggingAead) ∧
        handed.bindCall.attachOpaqueData ≠ some [0]) ∧
    ∃ func handed,
      bindHandler taggingAead ⟨sampleRegistry, some sampleKey, none⟩
          (sampleBindCall (mintedInTransaction (some sampleKey)))
          (CallScope.unary (mintedInTransaction (some sampleKey)).caller) = .ok (func, handed) ∧
        handed.attachOpaqueData = some [0] ∧ handed.transactionOpaqueData ≠ some [7] := by
  constructor
  · intro signingKey member
    refine ⟨⟨sampleBindCall (sampleMinted signingKey [0]), none⟩, rfl, rfl, ?_⟩
    simp only [List.mem_cons, List.not_mem_nil, or_false] at member
    rcases member with rfl | rfl
    · decide
    · decide +kernel
  · exact ⟨sampleFunction, sampleBound (mintedInTransaction (some sampleKey)) [0], rfl, rfl,
      by decide +kernel⟩

end VgiWorker.Protocol
