import VgiWorker.Arrow.Codec
import VgiWorker.Crypto.Envelope
import VgiWorker.Js.Base64
import VgiWorker.Js.Json

/-!
# Attach tickets

A user's attach, sealed so that a runner can replay it later as that user: the
payload, the token around it, `seal_attach` and the redemption of a ticket.
-/

set_option autoImplicit false

namespace VgiWorker.Crypto

open VgiWorker.Js
open VgiWorker.Arrow

def attachTicketPrefix : Text := text "vgia1."

def attachTicketOption : Text := text "vgi_attach_ticket"

def ticketEnvelopeVersion : UInt8 := 1

def maxOptionsBytes : Nat := 16 * 1024

def maxTicketChars : Nat := 32 * 1024

def clockSkewSeconds : Number := Number.ofNat 60

def maxText : Nat := 0xffff

inductive AttachTicketFault where
  | invalid (detail : Text)
  | expired (detail : Text)
  | request (message : Text) (violations : List (Text × Text))
  | denied (message : Text)
  /-- Any other `Error`. -/
  | error (message : Text)
  deriving DecidableEq

def AttachTicketFault.message : AttachTicketFault → Text
  | .invalid detail => detail
  | .expired detail => detail
  | .request message _ => message
  | .denied message => message
  | .error message => message

def invalidTicket {α : Type} (detail : String) : Except AttachTicketFault α :=
  .error (.invalid (text detail))

def expiredTicket {α : Type} (detail : String) : Except AttachTicketFault α :=
  .error (.expired (text detail))

/-- Times are seconds since the Unix epoch; an expiry of zero is none. -/
structure AttachTicketClaims where
  issuedAt : Number
  expiresAt : Number
  ticketId : Text
  catalogName : Text
  dataVersionSpec : Text
  implementationVersion : Text
  optionsIpc : Bytes
  deriving DecidableEq

def attachTicketAad (principal : Text) : Bytes :=
  utf8Encode (text "vgi.attach_ticket.v1") ++ 0 :: utf8Encode principal

/-! ## Payload -/

def packText (value : Text) (name : String) : Except AttachTicketFault Bytes :=
  if maxText < (utf8Encode value).length then
    .error (.error (text name ++ text " is longer than 65535 bytes"))
  else .ok (putChunk 2 (utf8Encode value))

/-- `BigInt(number)`. -/
def bigIntOf (number : Number) : Except AttachTicketFault Int :=
  match number.toInt? with
  | some value => .ok value
  | none =>
      .error (.error (text "The number " ++ number.toText ++
        text " cannot be converted to a BigInt because it is not an integer"))

/-- `setBigInt64`, little-endian: the low 64 bits. -/
def int64Bytes (value : Int) : Bytes :=
  leBytes 8 (value % 2 ^ 64).toNat

/-- `getBigInt64`. -/
def int64Value (bytes : Bytes) : Int :=
  if leValue bytes < 2 ^ 63 then leValue bytes else leValue bytes - 2 ^ 64

def encodePayload (claims : AttachTicketClaims) : Except AttachTicketFault Bytes := do
  if maxOptionsBytes < claims.optionsIpc.length then
    .error (.error (text "options are " ++ Number.decimal claims.optionsIpc.length ++
      text " bytes; a ticket carries at most " ++ Number.decimal maxOptionsBytes))
  else
    let issuedAt ← bigIntOf claims.issuedAt
    let expiresAt ← bigIntOf claims.expiresAt
    let ticketId ← packText claims.ticketId "ticket_id"
    let catalogName ← packText claims.catalogName "catalog_name"
    let dataVersionSpec ← packText claims.dataVersionSpec "data_version_spec"
    let implementationVersion ← packText claims.implementationVersion "implementation_version"
    .ok ((int64Bytes issuedAt ++ int64Bytes expiresAt) ++ (ticketId ++ (catalogName ++
      (dataVersionSpec ++ (implementationVersion ++ putChunk 4 claims.optionsIpc)))))

def need {α : Type} (taken : Option α) : Except AttachTicketFault α :=
  match taken with
  | some value => .ok value
  | none => invalidTicket "attach ticket payload is truncated"

/-- A text behind its length, with the rest of the payload. -/
def takeText (bytes : Bytes) : Except AttachTicketFault (Text × Bytes) := do
  let (length, rest) ← need (takeInt 2 bytes)
  let (raw, rest) ← need (takeBytes length rest)
  match utf8DecodeKeepingBom raw with
  | some value => .ok (value, rest)
  | none => invalidTicket "attach ticket payload is not UTF-8"

def takeOptions (bytes : Bytes) : Except AttachTicketFault (Bytes × Bytes) := do
  let (length, rest) ← need (takeInt 4 bytes)
  if maxOptionsBytes < length then invalidTicket "attach ticket options exceed 16 KiB"
  else need (takeBytes length rest)

/-- `/^[0-9a-f]{32}$/`. -/
def isTicketId (id : Text) : Bool :=
  id.length == 32 && id.all fun unit =>
    decide ((48 ≤ unit.toNat ∧ unit.toNat ≤ 57) ∨ (97 ≤ unit.toNat ∧ unit.toNat ≤ 102))

def emptyLifetime (issuedAt expiresAt : Number) : Bool :=
  !expiresAt.strictEq Number.zero && expiresAt.lessEq issuedAt

/-- The rules a payload keeps once it is read, `trailing` being what is left of it. -/
def checkClaims (claims : AttachTicketClaims) (trailing : Bytes) :
    Except AttachTicketFault AttachTicketClaims :=
  if trailing ≠ [] then invalidTicket "attach ticket payload has trailing bytes"
  else if !isTicketId claims.ticketId then
    invalidTicket "attach ticket id is not 32 lowercase hex"
  else if claims.catalogName = [] then invalidTicket "attach ticket names no catalog"
  else if emptyLifetime claims.issuedAt claims.expiresAt then
    invalidTicket "attach ticket lifetime is empty"
  else .ok claims

def decodePayload (payload : Bytes) : Except AttachTicketFault AttachTicketClaims := do
  let (head, rest) ← need (takeBytes 16 payload)
  let (ticketId, rest) ← takeText rest
  let (catalogName, rest) ← takeText rest
  let (dataVersionSpec, rest) ← takeText rest
  let (implementationVersion, rest) ← takeText rest
  let (optionsIpc, trailing) ← takeOptions rest
  checkClaims
    { issuedAt := Number.ofInt (int64Value (head.take 8))
      expiresAt := Number.ofInt (int64Value (head.drop 8))
      ticketId
      catalogName
      dataVersionSpec
      implementationVersion
      optionsIpc }
    trailing

/-! ## Token -/

def b64urlStrict (token : Text) : Except AttachTicketFault Bytes :=
  match token.mapM sextetOf? with
  | some sextets =>
      if token = [] ∨ token.length % 4 = 1 then
        invalidTicket "attach ticket is not unpadded base64url"
      else if base64Url (bytesOfSextets sextets) ≠ token then
        invalidTicket "attach ticket is not canonical base64url"
      else .ok (bytesOfSextets sextets)
  | none => invalidTicket "attach ticket is not unpadded base64url"

/-- The random bytes a ticket takes: its nonce and the 16 bytes of its id. -/
structure TicketDraw where
  nonce : Nonce
  idBytes : Bytes
  idLength : idBytes.length = 16

/-- `randomHex(16)`. -/
def TicketDraw.id (draw : TicketDraw) : Text :=
  draw.idBytes.flatMap hexByte

structure MintAttachTicketOptions where
  principal : Text
  catalogName : Text
  optionsIpc : Bytes
  dataVersionSpec : Option Text
  implementationVersion : Option Text
  issuedAt : Number
  expiresAt : Number

/-- The claims `mintAttachTicket` seals. -/
def MintAttachTicketOptions.claims (options : MintAttachTicketOptions) (draw : TicketDraw) :
    AttachTicketClaims :=
  { issuedAt := options.issuedAt.trunc
    expiresAt := options.expiresAt.trunc
    ticketId := draw.id
    catalogName := options.catalogName
    dataVersionSpec := options.dataVersionSpec.getD []
    implementationVersion := options.implementationVersion.getD []
    optionsIpc := options.optionsIpc }

section

variable (crypto : Primitives)

def mintAttachTicket (signingKey : Bytes) (options : MintAttachTicketOptions) (draw : TicketDraw) :
    Except AttachTicketFault (Text × AttachTicketClaims) := do
  let claims := options.claims draw
  if options.principal = [] then .error (.error (text "a ticket needs a principal"))
  else if options.catalogName = [] then .error (.error (text "a ticket needs a catalog name"))
  else if !isTicketId claims.ticketId then
    .error (.error (text "ticket_id must be 32 lowercase hex"))
  else if emptyLifetime claims.issuedAt claims.expiresAt then
    .error (.error (text "expires_at must be 0 or after issued_at"))
  else
    let payload ← encodePayload claims
    let envelope := sealBytes crypto payload signingKey (attachTicketAad options.principal)
      ticketEnvelopeVersion draw.nonce
    let token := attachTicketPrefix ++ base64Url envelope
    if maxTicketChars < token.length then
      .error (.error (text "the ticket would be " ++ Number.decimal token.length ++
        text " characters; at most " ++ Number.decimal maxTicketChars ++ text " are accepted"))
    else .ok (token, claims)

/-- The lifetime check of an authentic ticket at the time `current`. -/
def checkLifetime (claims : AttachTicketClaims) (current : Number) :
    Except AttachTicketFault AttachTicketClaims :=
  if (current.add clockSkewSeconds).less claims.issuedAt then
    expiredTicket "attach ticket is not yet valid"
  else if !claims.expiresAt.strictEq Number.zero &&
      (claims.expiresAt.add clockSkewSeconds).lessEq current then
    expiredTicket "attach ticket has expired"
  else .ok claims

def openAttachTicket (signingKey : Bytes) (token : Text) (principal : Option Text)
    (current : Number) : Except AttachTicketFault AttachTicketClaims := do
  if !attachTicketPrefix.isPrefixOf token then invalidTicket "not an attach ticket"
  else if maxTicketChars < token.length then invalidTicket "attach ticket is too long"
  else
    let envelope ← b64urlStrict (token.drop attachTicketPrefix.length)
    match principal with
    | none | some [] => invalidTicket "an anonymous caller cannot redeem an attach ticket"
    | some principal =>
        match openBytes crypto envelope signingKey (attachTicketAad principal)
            ticketEnvelopeVersion attachTicketOption with
        | .error _ => invalidTicket "attach ticket failed verification"
        | .ok payload => do
            let claims ← decodePayload payload
            checkLifetime claims current

/-! ## Redemption -/

/-- The fields of the attach request that a ticket replaces. -/
structure RestoredAttach where
  name : Text
  optionsIpc : Option Bytes
  options : List (Text × Rich)
  dataVersionSpec : Option Text
  implementationVersion : Option Text

/-- `value || null`. -/
def orNull {α : Type} (value : List α) : Option (List α) :=
  if value.isEmpty then none else some value

def callerPrincipal (auth : Option AuthContext) : Option Text :=
  match auth with
  | some ⟨true, _, some principal⟩ => orNull principal
  | _ => none

variable (dateText : Number → Text) (deserializeBatch : Bytes → Except Text Batch)
  (toLowerCase : Text → Text)

def decodeOptionsBatch (bytes : Bytes) : Except AttachTicketFault (List (Text × Rich)) :=
  if bytes = [] then .ok []
  else
    match deserializeBatch bytes with
    | .error message => .error (.error message)
    | .ok batch =>
        if batch.numRows = 0 then .ok []
        else
          match rowAt dateText batch 0 with
          | .ok row => .ok row
          | .error fault => .error (.error fault.message)

def redeemAttachTicket (options : List (Text × Rich)) (signingKey : Option Bytes)
    (auth : Option AuthContext) (current : Number) :
    Except AttachTicketFault (Option RestoredAttach) :=
  match options.find? fun option => toLowerCase option.1 = attachTicketOption with
  | none => .ok none
  | some (key, presented) =>
      let others := options.filter fun option => option.1 ≠ key
      if others ≠ [] then
        .error (.request (attachTicketOption ++ text " must be the only attach option")
          (others.map fun option => (text "options." ++ option.1,
            text "not allowed alongside " ++ attachTicketOption)))
      else
        match presented, signingKey with
        | .string token, some signingKey => do
            let claims ← openAttachTicket crypto signingKey token (callerPrincipal auth) current
            match decodeOptionsBatch dateText deserializeBatch claims.optionsIpc with
            | .error _ => invalidTicket "attach ticket options are not an Arrow IPC record"
            | .ok restored =>
                .ok (some
                  { name := claims.catalogName
                    optionsIpc := orNull claims.optionsIpc
                    options := restored
                    dataVersionSpec := orNull claims.dataVersionSpec
                    implementationVersion := orNull claims.implementationVersion })
        | .string _, none => invalidTicket "this worker does not redeem attach tickets"
        | _, _ => .error (.invalid (attachTicketOption ++ text " must be a string"))

/-! ## Sealing -/

structure AttachOptionSpec where
  name : Text
  required : Bool

/-- A catalog the worker serves; its specs are those `deserializeAttachOptionSpecs` reads. -/
structure CatalogInfo where
  name : Text
  attachOptionSpecs : Except Text (List AttachOptionSpec)

/-- A reading of `Date.now() / 1000`: a time value is at most 8.64e15 milliseconds. -/
structure ClockReading where
  reading : Number
  seconds : ℚ
  reading_eq : reading.toRat? = some seconds
  bounded : |seconds| ≤ 8640000000000

structure AttachTicketsConfig where
  signingKey : Bytes
  catalogInterface : Option (List CatalogInfo)
  maxTtlSeconds : Option Number
  now : ClockReading

/-- `SealAttachRequest`; the lifetime is `Number(request.ttl_seconds ?? 0)`. -/
structure SealAttachRequest where
  catalogName : Text
  options : Option Bytes
  dataVersionSpec : Text
  implementationVersion : Text
  ttlSeconds : Number

/-- `expiresAt` is the time value of the `Date`. -/
structure AttachTicket where
  ticket : Text
  expiresAt : Option Number

def declaredSpecs (catalogInterface : Option (List CatalogInfo)) (catalogName : Text) :
    Except AttachTicketFault (Option (List AttachOptionSpec)) :=
  match (catalogInterface.getD []).find? fun info => info.name = catalogName with
  | none => .ok none
  | some info =>
      match info.attachOptionSpecs with
      | .ok specs => .ok (some specs)
      | .error message => .error (.error message)

def ttlViolations (ttl : Number) : List (Text × Text) :=
  if !ttl.isFinite || ttl.less Number.zero then
    [(text "ttl_seconds", text "must be 0 (as long as allowed) or positive")]
  else []

/-- The record and the options of a request, with what is wrong with them. -/
def requestedOptions (options : Option Bytes) :
    Except AttachTicketFault (Bytes × List (Text × Rich) × List (Text × Text)) :=
  match options with
  | none | some [] => .ok ([], [], [])
  | some raw =>
      match deserializeBatch raw with
      | .error message => .error (.error message)
      | .ok batch =>
          if 1 < batch.numRows then .ok ([], [], [(text "options", text "must be a one-row record")])
          else if batch.numRows = 1 then do
            let options ← decodeOptionsBatch dateText deserializeBatch raw
            .ok (raw, options, [])
          else .ok ([], [], [])

def optionViolations (specs : List AttachOptionSpec) (options : List (Text × Rich)) :
    List (Text × Text) :=
  let declared := specs.map fun spec => toLowerCase spec.name
  let supplied := options.map fun option => toLowerCase option.1
  (options.flatMap fun option =>
    if toLowerCase option.1 = attachTicketOption then
      [(text "options." ++ option.1, text "a ticket cannot seal another ticket")]
    else if toLowerCase option.1 ∉ declared then
      [(text "options." ++ option.1, text "not an attach option this catalog declares")]
    else []) ++
  specs.flatMap fun spec =>
    if spec.required ∧ toLowerCase spec.name ∉ supplied then
      [(text "options." ++ spec.name, text "required")]
    else []

def catalogViolations (specs : Option (List AttachOptionSpec)) (catalogName : Text)
    (options : List (Text × Rich)) : List (Text × Text) :=
  match specs with
  | none => [(text "catalog_name", text "no catalog named " ++ stringifyText catalogName)]
  | some specs => optionViolations toLowerCase specs options

def sizeViolations (optionsIpc : Bytes) : List (Text × Text) :=
  if maxOptionsBytes < optionsIpc.length then
    [(text "options", Number.decimal optionsIpc.length ++ text " bytes; a ticket carries at most " ++
      Number.decimal maxOptionsBytes)]
  else []

/-- When a ticket sealed at `issuedAt` expires: zero asks for the ceiling, anything else
is capped at it. -/
def expiryOf (issuedAt ttl : Number) (ceiling : Option Number) : Number :=
  match ceiling with
  | none => if ttl.strictEq Number.zero then Number.zero else issuedAt.add ttl.trunc
  | some ceiling =>
      if ttl.strictEq Number.zero then issuedAt.add ceiling
      else issuedAt.add (ttl.trunc.mathMin ceiling)

/-- The time value of `new Date(ms)`. -/
def timeClip (ms : Number) : Number :=
  match ms.toRat? with
  | some value => if |value| ≤ maxTime then Number.ofInt (Number.truncate value) else .nan
  | none => .nan

def sealAttach (config : AttachTicketsConfig) (request : SealAttachRequest)
    (auth : Option AuthContext) (draw : TicketDraw) : Except AttachTicketFault AttachTicket := do
  match callerPrincipal auth with
  | none => .error (.denied (text "an anonymous caller cannot seal an attach ticket"))
  | some principal =>
      let (optionsIpc, options, recordViolations) ←
        requestedOptions dateText deserializeBatch request.options
      let specs ← declaredSpecs config.catalogInterface request.catalogName
      let violations := ttlViolations request.ttlSeconds ++ recordViolations ++
        catalogViolations toLowerCase specs request.catalogName options ++ sizeViolations optionsIpc
      if violations ≠ [] then .error (.request (text "seal_attach request is invalid") violations)
      else
        let issuedAt := config.now.reading.trunc
        let expiresAt := expiryOf issuedAt request.ttlSeconds config.maxTtlSeconds
        match mintAttachTicket crypto config.signingKey
            { principal
              catalogName := request.catalogName
              optionsIpc
              dataVersionSpec := some request.dataVersionSpec
              implementationVersion := some request.implementationVersion
              issuedAt
              expiresAt } draw with
        | .error fault =>
            .error (.request (text "seal_attach request is invalid") [(text "request", fault.message)])
        | .ok (token, _) =>
            .ok
              { ticket := token
                expiresAt :=
                  if expiresAt.strictEq Number.zero then none
                  else some (timeClip (expiresAt.mul (Number.ofNat 1000))) }

end

end VgiWorker.Crypto
