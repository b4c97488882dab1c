import VgiWorker.Crypto.AttachTicket
import VgiWorker.Crypto.SplitToken
import VgiWorker.Data.Result

/-!
# Associated data across token kinds

What the associated data of a sealing says about its kind, the caller it was
sealed for and the bytes it is bound to.
-/

set_option autoImplicit false

namespace VgiWorker.Crypto

open VgiWorker.Js

inductive TokenKind where
  | attachEnvelope
  | transactionEnvelope
  | attachTicket
  | splitToken
  deriving DecidableEq

/-- The plaintext header of a sealed split token. -/
structure SplitHeader where
  fingerprint : Bytes
  anchor : Bytes
  fingerprint_length : fingerprint.length = fingerprintLength
  anchor_fits : anchor.length ≤ 0xffff

def SplitHeader.bytes (header : SplitHeader) : Bytes :=
  splitTokenBody true header.fingerprint header.anchor

inductive TokenSealing where
  | attach (auth : Option AuthContext)
  | transaction (auth : Option AuthContext) (attachEnvelope : Bytes)
  | ticket (auth : Option AuthContext) (principal : Text)
      (caller : callerPrincipal auth = some principal)
  | split (auth : Option AuthContext) (header : SplitHeader)

/-- A caller as its strings read in UTF-8, an absent one being empty. -/
inductive Identity where
  | anonymous
  | authenticated (domain principal : Text)
  deriving DecidableEq

def identityOf (auth : Option AuthContext) : Identity :=
  match auth with
  | some ⟨true, domain, principal⟩ =>
      .authenticated (toWellFormed (domain.getD [])) (toWellFormed (principal.getD []))
  | _ => .anonymous

def Identity.principal? : Identity → Option Text
  | .anonymous => none
  | .authenticated _ principal => some principal

def DomainDelimited : Option AuthContext → Prop
  | some ⟨true, domain, _⟩ => (0 : CodeUnit) ∉ domain.getD []
  | _ => True

def PrincipalDelimited : Option AuthContext → Prop
  | some ⟨true, _, principal⟩ => (0 : CodeUnit) ∉ principal.getD []
  | _ => True

namespace TokenSealing

def kind : TokenSealing → TokenKind
  | .attach _ => .attachEnvelope
  | .transaction _ _ => .transactionEnvelope
  | .ticket _ _ _ => .attachTicket
  | .split _ _ => .splitToken

def auth : TokenSealing → Option AuthContext
  | .attach auth => auth
  | .transaction auth _ => auth
  | .ticket auth _ _ => auth
  | .split auth _ => auth

def identity (token : TokenSealing) : Identity :=
  identityOf token.auth

/-- The parent envelope or the header the sealing is bound to. -/
def bound : TokenSealing → Option Bytes
  | .attach _ => none
  | .transaction _ attachEnvelope => some attachEnvelope
  | .ticket _ _ _ => none
  | .split _ header => some header.bytes

def aad : TokenSealing → Bytes
  | .attach auth => attachAad auth
  | .transaction auth attachEnvelope => transactionAad auth attachEnvelope
  | .ticket _ principal _ => attachTicketAad principal
  | .split auth header => splitTokenAad header.bytes auth

def version : TokenSealing → UInt8
  | .attach _ => attachEnvelopeVersion
  | .transaction _ _ => transactionEnvelopeVersion
  | .ticket _ _ _ => ticketEnvelopeVersion
  | .split _ _ => sealVersion

/-- No string of the caller holds the separator that follows it. -/
def Delimited : TokenSealing → Prop
  | .attach auth => DomainDelimited auth
  | .transaction auth _ => DomainDelimited auth ∧ PrincipalDelimited auth
  | .ticket _ _ _ => True
  | .split auth _ => DomainDelimited auth

/-- Two sealings that cannot be told apart are of one kind; tickets are for one principal,
split tokens have one header, and the others agree on caller and parent. -/
structure Agree (left right : TokenSealing) : Prop where
  kind : left.kind = right.kind
  ticket : left.kind = .attachTicket → left.identity.principal? = right.identity.principal?
  header : left.kind = .splitToken → left.bound = right.bound
  caller : left.kind ≠ .attachTicket → left.Delimited → right.Delimited →
    left.identity = right.identity ∧ left.bound = right.bound

end TokenSealing

/-! ## One kind -/

/-- The first bytes of the associated data of a kind. -/
private def kindPrefix : TokenKind → Bytes
  | .attachEnvelope => (utf8Encode (text "vgi.attach_opaque_data.v1")).take 12
  | .transactionEnvelope => (utf8Encode (text "vgi.transaction_opaque_data.v1")).take 12
  | .attachTicket => (utf8Encode (text "vgi.attach_ticket.v1")).take 12
  | .splitToken => [splitTokenFormatVersion]

private theorem kindPrefix_prefix (token : TokenSealing) : kindPrefix token.kind <+: token.aad := by
  cases token with
  | attach auth => exact (List.take_prefix _ _).trans (List.prefix_append _ _)
  | transaction auth attachEnvelope => exact (List.take_prefix _ _).trans (List.prefix_append _ _)
  | ticket auth principal caller => exact (List.take_prefix _ _).trans (List.prefix_append _ _)
  | split auth header => exact ⟨_, rfl⟩

private theorem kindPrefix_injective (left right : TokenKind)
    (comparable : kindPrefix left <+: kindPrefix right ∨ kindPrefix right <+: kindPrefix left) :
    left = right := by
  revert comparable
  cases left <;> cases right <;> decide +kernel

theorem kind_of_aad (left right : TokenSealing) (same : left.aad = right.aad) :
    left.kind = right.kind := by
  have leftPrefix := kindPrefix_prefix left
  have rightPrefix := kindPrefix_prefix right
  rw [← same] at rightPrefix
  exact kindPrefix_injective _ _ (List.prefix_or_prefix_of_prefix leftPrefix rightPrefix)

/-! ## The caller -/

private theorem identity_cases (auth : Option AuthContext) :
    (identityTail auth = 0 :: utf8Encode (text "anonymous") ∧ identityOf auth = .anonymous) ∨
      ∃ domain principal, auth = some ⟨true, domain, principal⟩ := by
  rcases auth with _ | ⟨authenticated, domain, principal⟩
  · exact Or.inl ⟨rfl, rfl⟩
  · cases authenticated with
    | false => exact Or.inl ⟨rfl, rfl⟩
    | true => exact Or.inr ⟨domain, principal, rfl⟩

private theorem identityOf_eq (domain principal domain' principal' : Option Text)
    (sameDomain : utf8Encode (domain.getD []) = utf8Encode (domain'.getD []))
    (samePrincipal : utf8Encode (principal.getD []) = utf8Encode (principal'.getD [])) :
    identityOf (some ⟨true, domain, principal⟩) = identityOf (some ⟨true, domain', principal'⟩) := by
  rw [identityOf, identityOf, toWellFormed_of_utf8Encode _ _ sameDomain,
    toWellFormed_of_utf8Encode _ _ samePrincipal]

/-- Tails of callers whose domains end at their separator. -/
private theorem identity_of_tail (left right : Option AuthContext)
    (leftFree : DomainDelimited left) (rightFree : DomainDelimited right) (same : identityTail left = identityTail right) :
    identityOf left = identityOf right := by
  rcases identity_cases left with ⟨leftTail, leftIs⟩ | ⟨domain, principal, rfl⟩
  · rcases identity_cases right with ⟨_, rightIs⟩ | ⟨domain', principal', rfl⟩
    · rw [leftIs, rightIs]
    · rw [leftTail] at same
      exact absurd (List.cons.inj same).1 (by decide)
  · rcases identity_cases right with ⟨rightTail, _⟩ | ⟨domain', principal', rfl⟩
    · rw [rightTail] at same
      exact absurd (List.cons.inj same).1 (by decide)
    · obtain ⟨sameDomain, samePrincipal⟩ := identityTail_injective domain principal domain' principal'
        (zero_not_mem_utf8Encode _ leftFree) (zero_not_mem_utf8Encode _ rightFree) same
      exact identityOf_eq _ _ _ _ sameDomain samePrincipal

/-- The same with a parent behind a separator of its own. -/
private theorem identity_of_tail_parent (left right : Option AuthContext) (parent parent' : Bytes)
    (leftFree : (TokenSealing.transaction left parent).Delimited)
    (rightFree : (TokenSealing.transaction right parent').Delimited)
    (same : identityTail left ++ 0 :: parent = identityTail right ++ 0 :: parent') :
    identityOf left = identityOf right ∧ parent = parent' := by
  rcases identity_cases left with ⟨leftTail, leftIs⟩ | ⟨domain, principal, rfl⟩
  · rcases identity_cases right with ⟨rightTail, rightIs⟩ | ⟨domain', principal', rfl⟩
    · rw [leftTail, rightTail] at same
      exact ⟨leftIs.trans rightIs.symm, (List.cons.inj (List.append_cancel_left same)).2⟩
    · rw [leftTail] at same
      exact absurd (List.cons.inj same).1 (by decide)
  · rcases identity_cases right with ⟨rightTail, _⟩ | ⟨domain', principal', rfl⟩
    · rw [rightTail] at same
      exact absurd (List.cons.inj same).1 (by decide)
    · obtain ⟨leftDomain, leftPrincipal⟩ := leftFree
      obtain ⟨rightDomain, rightPrincipal⟩ := rightFree
      have tails := (List.cons.inj same).2
      simp only [List.append_eq, List.append_assoc, List.cons_append] at tails
      obtain ⟨sameDomain, tails⟩ := append_delimiter_inj 0 _ _ _ _
        (zero_not_mem_utf8Encode _ leftDomain) (zero_not_mem_utf8Encode _ rightDomain) tails
      obtain ⟨samePrincipal, parents⟩ := append_delimiter_inj 0 _ _ _ _
        (zero_not_mem_utf8Encode _ leftPrincipal) (zero_not_mem_utf8Encode _ rightPrincipal) tails
      exact ⟨identityOf_eq _ _ _ _ sameDomain samePrincipal, parents⟩

private theorem principal?_of_caller (auth : Option AuthContext) (principal : Text)
    (caller : callerPrincipal auth = some principal) :
    (identityOf auth).principal? = some (toWellFormed principal) := by
  unfold callerPrincipal at caller
  split at caller
  · rename_i domain held
    have same : held = principal := by
      unfold orNull at caller
      split at caller
      · cases caller
      · exact Option.some.inj caller
    rw [same]
    rfl
  · cases caller

/-! ## The header -/

/-- A header says how long it is. -/
theorem splitHeader_inj (left right : SplitHeader) (tail tail' : Bytes)
    (same : left.bytes ++ tail = right.bytes ++ tail') :
    left.bytes = right.bytes ∧ tail = tail' := by
  have layout : ∀ header : SplitHeader, header.bytes.length = headerLength + header.anchor.length := by
    intro header
    simp only [SplitHeader.bytes, splitTokenBody, List.length_cons, List.length_append,
      length_leBytes, header.fingerprint_length, headerLength]
    omega
  have counted : ∀ (header : SplitHeader) (rest : Bytes),
      takeInt 2 ((header.bytes ++ rest).drop 2) =
        some (header.anchor.length, header.fingerprint ++ header.anchor ++ rest) := by
    intro header rest
    have bound : header.anchor.length < 256 ^ 2 := by
      have fits := header.anchor_fits
      omega
    have dropped : (header.bytes ++ rest).drop 2 =
        leBytes 2 header.anchor.length ++ (header.fingerprint ++ header.anchor ++ rest) := by
      simp [SplitHeader.bytes, splitTokenBody]
    rw [dropped, takeInt_leBytes_of_lt 2 _ _ bound]
  have anchors : left.anchor.length = right.anchor.length := by
    have leftCount := counted left tail
    rw [same, counted right tail'] at leftCount
    exact (Prod.mk.inj (Option.some.inj leftCount)).1.symm
  exact List.append_inj same (by rw [layout, layout, anchors])

/-! ## All of it -/

theorem agree_of_aad (left right : TokenSealing) (same : left.aad = right.aad) :
    left.Agree right := by
  have kinds := kind_of_aad left right same
  cases left with
  | attach auth =>
      cases right with
      | attach auth' =>
          refine ⟨rfl, nofun, nofun, fun _ leftFree rightFree => ⟨?_, rfl⟩⟩
          have tails := (List.cons.inj (List.append_cancel_left same)).2
          exact identity_of_tail auth auth' leftFree rightFree tails
      | _ => cases kinds
  | transaction auth parent =>
      cases right with
      | transaction auth' parent' =>
          refine ⟨rfl, nofun, nofun, fun _ leftFree rightFree => ?_⟩
          have tails := (List.cons.inj (List.append_cancel_left same)).2
          obtain ⟨callers, parents⟩ :=
            identity_of_tail_parent auth auth' parent parent' leftFree rightFree tails
          exact ⟨callers, congrArg some parents⟩
      | _ => cases kinds
  | ticket auth principal caller =>
      cases right with
      | ticket auth' principal' caller' =>
          refine ⟨rfl, fun _ => ?_, nofun, fun notTicket => absurd rfl notTicket⟩
          have encoded := (List.cons.inj (List.append_cancel_left same)).2
          have decoded := toWellFormed_of_utf8Encode _ _ encoded
          change (identityOf auth).principal? = (identityOf auth').principal?
          rw [principal?_of_caller auth principal caller, principal?_of_caller auth' principal' caller',
            decoded]
      | _ => cases kinds
  | split auth header =>
      cases right with
      | split auth' header' =>
          obtain ⟨headers, tails⟩ := splitHeader_inj header header' _ _ same
          refine ⟨rfl, nofun, fun _ => congrArg some headers, fun _ leftFree rightFree => ?_⟩
          exact ⟨identity_of_tail auth auth' leftFree rightFree tails, congrArg some headers⟩
      | _ => cases kinds

/-- Sealings whose associated data is equal agree, and so do two of which one opens as the
other. -/
theorem associated_data_separates (left right : TokenSealing) :
    (left.aad = right.aad → left.Agree right) ∧
      ∀ (crypto : Primitives) (key payload opened : Bytes) (nonce : Nonce) (field : Text),
        (crypto.decrypt (normalizeKey crypto key) nonce.bytes right.aad
            (crypto.encrypt (normalizeKey crypto key) nonce.bytes left.aad payload) ≠ none →
          left.aad = right.aad) →
        openBytes crypto (sealBytes crypto payload key left.aad left.version nonce) key right.aad
            right.version field = .ok opened →
          left.Agree right := by
  refine ⟨agree_of_aad left right, ?_⟩
  intro crypto key payload opened nonce field authentic success
  obtain ⟨nonce', ciphertext, length, token, decrypted⟩ := openBytes_ok _ _ _ _ _ _ _ success
  obtain ⟨nonces, ciphertexts⟩ :=
    List.append_inj (List.cons.inj token).2 (nonce.length_eq.trans length.symm)
  apply agree_of_aad
  apply authentic
  rw [← nonces] at decrypted
  rw [ciphertexts, decrypted]
  exact Option.some_ne_none opened

/-- A cipher whose tag is the end of the associated data. -/
def boundAead : Primitives where
  sha256 := fun _ => List.replicate 32 0
  encrypt := fun _ _ aad plaintext => plaintext ++ tag aad
  decrypt := fun _ _ aad ciphertext =>
    if ciphertext.drop (ciphertext.length - tagLength) = tag aad then
      some (ciphertext.take (ciphertext.length - tagLength))
    else none
where
  tag (aad : Bytes) : Bytes := (aad.reverse ++ List.replicate tagLength 0).take tagLength

/-- A ticket of one principal, sealed under this domain. -/
def sampleTicket (domain : Text) : TokenSealing :=
  .ticket (some ⟨true, some domain, some (text "alice")⟩) (text "alice") rfl

theorem associated_data_separates_sample :
    (sampleTicket (text "jwt")).Agree (sampleTicket (text "grant")) ∧
      (sampleTicket (text "jwt")).identity ≠ (sampleTicket (text "grant")).identity :=
  ⟨(associated_data_separates (sampleTicket (text "jwt")) (sampleTicket (text "grant"))).2
    boundAead (List.replicate 32 1) [1, 2, 3] [1, 2, 3] ⟨List.replicate nonceLength 7, rfl⟩ []
    (fun _ => rfl) (by decide +kernel), by decide +kernel⟩

/-- Tickets of one principal in two domains carry the same associated data. -/
theorem ticket_domains_share_aad : ∃ left right : TokenSealing,
    left.aad = right.aad ∧ left.identity ≠ right.identity :=
  ⟨sampleTicket (text "jwt"), sampleTicket (text "grant"), rfl, by decide +kernel⟩

end VgiWorker.Crypto
