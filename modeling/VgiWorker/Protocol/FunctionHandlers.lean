import VgiWorker.Crypto.AttachTicket
import VgiWorker.Crypto.BindFingerprint
import VgiWorker.Protocol.OpaqueData
import VgiWorker.Protocol.Requests

/-!
# The function lifecycle handlers

What the `bind`, `init` and `table_function_*` handlers do with a request before
a hook of the function runs: they unseal, resolve the function, and redeem the
split tokens.
-/

set_option autoImplicit false

namespace VgiWorker.Protocol

open VgiWorker.Js VgiWorker.Arrow VgiWorker.Crypto

inductive HandlerFault where
  | opaqueDataRejected (fault : OpaqueDataRejectedError)
  | splitToken (fault : SplitFault)
  | rangeError (message : Text)
  | error (message : Text)
  deriving DecidableEq

def refused {α : Type} (result : Except OpaqueDataRejectedError α) : Except HandlerFault α :=
  result.mapError .opaqueDataRejected

def redeemed {α : Type} (result : Except SplitFault α) : Except HandlerFault α :=
  result.mapError .splitToken

def thrown {α : Type} (result : Except Text α) : Except HandlerFault α :=
  result.mapError .error

theorem refused_ok {α : Type} (result : Except OpaqueDataRejectedError α) (value : α) :
    refused result = .ok value ↔ result = .ok value :=
  except_mapError_ok _ _ _

theorem redeemed_ok {α : Type} (result : Except SplitFault α) (value : α) :
    redeemed result = .ok value ↔ result = .ok value :=
  except_mapError_ok _ _ _

theorem thrown_ok {α : Type} (result : Except Text α) (value : α) :
    thrown result = .ok value ↔ result = .ok value :=
  except_mapError_ok _ _ _

structure CatalogInterface where
  catalogNameForAttach : Bytes → Except Text (Option Text)
  version : Option (Bytes → Option Bytes → Except Text Number)

structure OverloadContext where
  arguments : Arguments
  inputSchema : Option Schema
  isScalar : Bool
  schemaPath : Option (List Text)
  catalogName : Option Text

inductive CatalogVersion where
  | number (value : Number)
  | bigint (value : Int)
  deriving DecidableEq

structure ScanSplit where
  payload : Bytes
  deriving DecidableEq

structure PlanResult where
  splits : List ScanSplit
  catalogVersion : Option CatalogVersion
  deriving DecidableEq

/-- A function as the handlers use it; the hooks whose results they only pass on are
declared or not. -/
structure VgiFunction where
  kind : Text
  globalInit : InitRequest → Except Text GlobalInitResponse
  plan : Option (TableFunctionPlanRequest → Except Text PlanResult)
  cardinality : Bool
  statistics : Bool
  dynamicToString : Bool
  projection : Bool

structure FunctionHandlerConfig where
  registry : Text → OverloadContext → Except Text VgiFunction
  signingKey : Option Bytes
  catalogInterface : Option CatalogInterface

/-- Where a handler finds its caller: the call's own context, and the scope of the HTTP request
it runs in. -/
structure CallScope where
  ctxAuth : Option AuthContext
  currentRequestAuth : Option AuthContext

namespace CallScope

def auth (scope : CallScope) : Option AuthContext :=
  scope.ctxAuth.or scope.currentRequestAuth

/-- A unary call has a context and a request scope of the same caller. -/
def unary (caller : Option AuthContext) : CallScope := ⟨caller, caller⟩

/-- The init and the exchange of a stream have no context. -/
def stream (caller : Option AuthContext) : CallScope := ⟨none, caller⟩

@[simp] theorem auth_unary (caller : Option AuthContext) : (unary caller).auth = caller := by
  cases caller <;> rfl

@[simp] theorem auth_stream (caller : Option AuthContext) : (stream caller).auth = caller := rfl

end CallScope

/-- `String(value).toLowerCase()`, as far as it can meet an ASCII word. -/
def lowerAscii (string : Text) : Text :=
  string.map fun unit => if 65 ≤ unit ∧ unit ≤ 90 then unit + 32 else unit

def overloadContext (request : BindRequest) (catalog : Option CatalogInterface) :
    OverloadContext where
  arguments := request.arguments
  inputSchema := request.inputSchema
  isScalar := lowerAscii request.functionType.value = text "scalar"
  schemaPath := request.schemaPath
  catalogName :=
    match catalog, request.attachOpaqueData with
    | some catalog, some attach => (catalog.catalogNameForAttach attach).toOption.join
    | _, _ => none

/-! ## Split anchors -/

def splitAnchor (version : Int) : Bytes :=
  int64Bytes version

/-- `splitAnchor(version)` of what a catalog answers, `none` where the conversion throws. -/
def anchorOfNumber (version : Number) : Option Bytes :=
  version.toInt?.map splitAnchor

def anchorOfVersion : CatalogVersion → Except HandlerFault Bytes
  | .bigint version => .ok (splitAnchor version)
  | .number version =>
      match anchorOfNumber version with
      | some anchor => .ok anchor
      | none =>
          .error (.rangeError (text "The number " ++ version.toText ++
            text " cannot be converted to a BigInt because it is not an integer"))

section

variable (crypto : Primitives)

/-- The anchor of the version reported for one form of an attach value. -/
def anchorAt (version : Bytes → Option Bytes → Except Text Number) (txn : Option Bytes)
    (form : Bytes) : Option Bytes :=
  (version form txn).toOption.bind anchorOfNumber

/-- The forms are tried in order, a fault of one leading to the next. -/
def liveSplitAnchor (catalog : Option CatalogInterface) (bindCall : BindRequest)
    (auth : Option AuthContext) (signingKey : Option Bytes) : Option Bytes :=
  match catalog.bind CatalogInterface.version, bindCall.attachOpaqueData with
  | some version, some raw =>
      (anchorAt version bindCall.transactionOpaqueData raw).or
        ((openAttach crypto raw auth signingKey).toOption.bind
          (anchorAt version bindCall.transactionOpaqueData))
  | _, _ => none

variable (fingerprintInputs : Bytes → Except Text ScanBind) (config : FunctionHandlerConfig)

def resolveSplitPayloads (request : InitRequest) (bindCallIpc : Bytes) (auth : Option AuthContext)
    (checkAnchor : Bool) : Except HandlerFault InitRequest :=
  match request.splitTokens with
  | none => .ok request
  | some tokens => do
      let scan ← thrown (fingerprintInputs bindCallIpc)
      let currentAnchor :=
        if checkAnchor then
          liveSplitAnchor crypto config.catalogInterface request.bindCall auth config.signingKey
        else none
      let payloads ← tokens.mapM fun token =>
        redeemed (openSplitToken crypto token
          { signingKey := config.signingKey
            auth := auth
            expectedFingerprint := some (scan.fingerprint crypto)
            currentAnchor := currentAnchor })
      .ok (request.withSplitPayloads (some payloads))

/-! ## Attach values -/

def stripAttach (attach : Option Bytes) (scope : CallScope) :
    Except OpaqueDataRejectedError (Option Bytes) :=
  match attach with
  | none => .ok none
  | some envelope =>
      if envelope = [] then .ok (some envelope)
      else do
        let opened ← openAttach crypto envelope scope.auth config.signingKey
        .ok (some opened)

/-- The function that a bind call names, looked up under the attach it carries. -/
def resolveFunction (bindCall : BindRequest) : Except HandlerFault VgiFunction :=
  thrown (config.registry bindCall.functionName (overloadContext bindCall config.catalogInterface))

/-- The context of a call that still holds the attach envelope; one that does not open is left
out. -/
def strippedContext (bindCall : BindRequest) (scope : CallScope) : OverloadContext :=
  overloadContext
    (bindCall.withAttach
      (match stripAttach crypto config bindCall.attachOpaqueData scope with
      | .ok attach => attach
      | .error _ => none))
    config.catalogInterface

def resolveStripped (bindCall : BindRequest) (scope : CallScope) :
    Except HandlerFault VgiFunction :=
  thrown (config.registry bindCall.functionName (strippedContext crypto config bindCall scope))

/-! ## The init turn -/

/-- An init request as a handler reads it, with the bytes of its bind call. -/
structure WireInit where
  request : InitRequest
  bindCallIpc : Bytes

/-- What the init turn hands to `globalInit`, and with its response to the stream handlers. -/
structure InitTurn where
  func : VgiFunction
  request : InitRequest
  response : GlobalInitResponse

/-- What the init turn verifies before any code of the function runs. -/
def admitInit (wire : WireInit) (scope : CallScope) : Except HandlerFault InitRequest := do
  let attach ← refused (stripAttach crypto config wire.request.bindCall.attachOpaqueData scope)
  resolveSplitPayloads crypto fingerprintInputs config (wire.request.withAttach attach)
    wire.bindCallIpc scope.auth true

def initTurn (wire : WireInit) (scope : CallScope) : Except HandlerFault InitTurn := do
  let request ← admitInit crypto fingerprintInputs config wire scope
  let func ← resolveFunction config request.bindCall
  let response ← thrown (func.globalInit request)
  .ok ⟨func, request, response⟩

/-! ## Planning -/

/-- What the `plan` hook answers, or the one split of a function without it. -/
def planResult (func : VgiFunction) (request : TableFunctionPlanRequest) :
    Except HandlerFault PlanResult :=
  match func.plan with
  | some plan => thrown (plan request)
  | none => .ok ⟨[⟨[]⟩], none⟩

/-- A version the worker names is taken at its word. -/
def planAnchor (plan : PlanResult) (bindCall : BindRequest) (scope : CallScope) :
    Except HandlerFault Bytes :=
  match plan.catalogVersion with
  | some version => anchorOfVersion version
  | none =>
      .ok ((liveSplitAnchor crypto config.catalogInterface bindCall scope.ctxAuth
        config.signingKey).getD (splitAnchor 0))

/-- The tokens of a plan, in the order of its splits; `nonces` are the nonces drawn. -/
def tableFunctionPlan (request : TableFunctionPlanRequest) (bindCallIpc : Bytes) (scope : CallScope)
    (nonces : Nat → Nonce) : Except HandlerFault (PlanResult × List Bytes) := do
  let func ← resolveStripped crypto config request.bindCall
    ⟨none, scope.currentRequestAuth⟩
  let plan ← planResult func request
  let scan ← thrown (fingerprintInputs bindCallIpc)
  let anchor ← planAnchor crypto config plan request.bindCall scope
  let tokens ← plan.splits.zipIdx.mapM fun entry =>
    redeemed (buildSplitToken crypto
      { payload := entry.1.payload
        fingerprint := scan.fingerprint crypto
        anchor := anchor
        signingKey := config.signingKey
        auth := scope.ctxAuth }
      (nonces entry.2))
  .ok (plan, tokens)

end

end VgiWorker.Protocol
