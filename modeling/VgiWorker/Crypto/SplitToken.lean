import VgiWorker.Crypto.Envelope
import VgiWorker.Js.Number

/-!
# Split tokens

The envelope around a worker's split payload: a plaintext header with the bind
fingerprint and the consistency anchor, and the payload, sealed when the worker
holds a signing key.
-/

set_option autoImplicit false

namespace VgiWorker.Crypto

open VgiWorker.Js

def splitTokenFormatVersion : UInt8 := 1

/-- Bit 0 of `flags`: the payload is sealed. -/
def flagPayloadSealed : UInt8 := 1

def reservedFlagsMask : UInt8 := 0xfe

def fingerprintLength : Nat := 16

def headerLength : Nat := 4 + fingerprintLength

def sealVersion : UInt8 := 1

inductive SplitTokenErrorKind where
  | invalid
  | snapshotExpired
  deriving DecidableEq

/-- What the split-token code throws; only the first is meant to leave it. -/
inductive SplitFault where
  | splitTokenError (kind : SplitTokenErrorKind) (message : Text)
  | opaqueDataRejected (fault : OpaqueDataRejectedError)
  | rangeError
  deriving DecidableEq

def splitTokenInvalid {α : Type} (message : Text) : Except SplitFault α :=
  .error (.splitTokenError .invalid message)

/-- `if (condition) throw new SplitTokenError(SPLIT_TOKEN_INVALID, message)`. -/
def refuseToken (condition : Prop) [Decidable condition] (message : Text) :
    Except SplitFault Unit :=
  if condition then splitTokenInvalid message else .ok ()

structure SplitTokenRequest where
  payload : Bytes
  fingerprint : Bytes
  anchor : Bytes
  signingKey : Option Bytes
  auth : Option AuthContext

/-- What a token is opened against; an absent fingerprint or anchor is not checked. -/
structure SplitTokenPresented where
  signingKey : Option Bytes
  auth : Option AuthContext
  expectedFingerprint : Option Bytes
  currentAnchor : Option Bytes

def splitTokenAad (header : Bytes) (auth : Option AuthContext) : Bytes :=
  header ++ identityTail auth

/-- The plaintext header with the anchor. -/
def splitTokenBody (isSealed : Bool) (fingerprint anchor : Bytes) : Bytes :=
  splitTokenFormatVersion :: (if isSealed then flagPayloadSealed else 0) ::
    (leBytes 2 anchor.length ++ fingerprint ++ anchor)

def buildSplitToken (crypto : Primitives) (request : SplitTokenRequest) (nonce : Nonce) :
    Except SplitFault Bytes := do
  refuseToken (request.fingerprint.length ≠ fingerprintLength)
    (text "bind_fingerprint must be 16 bytes, got " ++ Number.decimal request.fingerprint.length)
  refuseToken (0xffff < request.anchor.length)
    (text "consistency_anchor too long: " ++ Number.decimal request.anchor.length ++
      text " bytes exceeds u16")
  let body := splitTokenBody request.signingKey.isSome request.fingerprint request.anchor
  match request.signingKey with
  | none => .ok (body ++ request.payload)
  | some signingKey =>
      .ok (body ++ sealBytes crypto request.payload signingKey
        (splitTokenAad body request.auth) sealVersion nonce)

/-- `DataView.getUint16(offset, true)`. -/
def getUint16 (bytes : Bytes) (offset : Nat) : Except SplitFault Nat :=
  match takeInt 2 (bytes.drop offset) with
  | some (value, _) => .ok value
  | none => .error .rangeError

/-- The checks on the version, the flags and the worker's own key state. -/
def checkSplitHeader (version flags : UInt8) (signingKey : Option Bytes) :
    Except SplitFault Unit := do
  refuseToken (version ≠ splitTokenFormatVersion)
    (text "unsupported split-token format_version " ++ Number.decimal version.toNat ++
      text "; this worker speaks 1")
  refuseToken (flags &&& reservedFlagsMask ≠ 0)
    (text "split token sets reserved flag bits (flags=0x" ++ hexByte flags ++ text ")")
  -- The worker's own key state decides, never the token's flag.
  refuseToken (signingKey.isSome ∧ flags &&& flagPayloadSealed = 0)
    (text "split token is unsealed but this worker holds a signing key; refusing. An unsealed " ++
      text "token cannot be authenticated, so accepting one here would let any caller forge a " ++
      text "split (alg:none).")
  refuseToken (signingKey = none ∧ flags &&& flagPayloadSealed ≠ 0)
    (text "split token is sealed but this worker holds no signing key; cannot open it")

/-- The bind check, then the anchor check with a kind of its own. -/
def checkSplitBinding (fingerprint anchor : Bytes) (presented : SplitTokenPresented) :
    Except SplitFault Unit := do
  refuseToken (presented.expectedFingerprint.any (· ≠ fingerprint))
    (text "split token was minted for a different bind (fingerprint mismatch)")
  if presented.currentAnchor.any (· ≠ anchor) then
    .error (.splitTokenError .snapshotExpired
      (text "split snapshot expired; re-run the query"))
  else .ok ()

/-- The payload behind the anchor; past the header check the flag says whether a key is held. -/
def openSplitPayload (crypto : Primitives) (body rest : Bytes) (presented : SplitTokenPresented) :
    Except SplitFault Bytes :=
  match presented.signingKey with
  | none => .ok rest
  | some signingKey =>
      match openBytes crypto rest signingKey (splitTokenAad body presented.auth) sealVersion
          (text "split token") with
      | .ok payload => .ok payload
      | .error fault =>
          splitTokenInvalid (text "split token failed authentication: " ++ fault.message)

def openSplitToken (crypto : Primitives) (token : Bytes) (presented : SplitTokenPresented) :
    Except SplitFault Bytes := do
  refuseToken (token.length < headerLength)
    (text "split token too short: " ++ Number.decimal token.length ++
      text " bytes, need at least 20")
  -- Both in range: the length check above.
  let version := token.getD 0 0
  let flags := token.getD 1 0
  let anchorLength ← getUint16 token 2
  checkSplitHeader version flags presented.signingKey
  let endOfAnchor := headerLength + anchorLength
  refuseToken (token.length < endOfAnchor)
    (text "split token truncated: anchor_len=" ++ Number.decimal anchorLength ++
      text " exceeds token length " ++ Number.decimal token.length)
  let fingerprint := (token.take headerLength).drop 4
  let anchor := (token.take endOfAnchor).drop headerLength
  checkSplitBinding fingerprint anchor presented
  openSplitPayload crypto (token.take endOfAnchor) (token.drop endOfAnchor) presented

end VgiWorker.Crypto
