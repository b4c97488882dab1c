import VgiWorker.Crypto.Envelope
import VgiWorker.Data.Result

/-!
# Attach and transaction values

How a catalog's opaque values leave the worker, under the framework's UUID and,
on a keyed transport, an envelope, and how a handler gets them back.
-/

set_option autoImplicit false

namespace VgiWorker.Protocol

open VgiWorker.Js VgiWorker.Crypto

/-- A drawn attach UUID. -/
structure AttachUuid where
  bytes : Bytes
  length_eq : bytes.length = attachUuidLength

section

variable (crypto : Primitives)

def sealAttach (plaintext : Bytes) (auth : Option AuthContext) (signingKey : Option Bytes)
    (uuid : AttachUuid) (nonce : Nonce) : Bytes :=
  let minted := uuid.bytes ++ plaintext
  match signingKey with
  | none => minted
  | some key => sealBytes crypto minted key (attachAad auth) attachEnvelopeVersion nonce

def openAttachFull (envelope : Bytes) (auth : Option AuthContext) (signingKey : Option Bytes) :
    Except OpaqueDataRejectedError Bytes :=
  match signingKey with
  | none => .ok envelope
  | some key =>
      if envelope = [] then .ok envelope
      else
        openBytes crypto envelope key (attachAad auth) attachEnvelopeVersion
          (text "attach_opaque_data")

/-- The plaintext behind the UUID, or all of one too short to hold it. -/
def stripUuid (full : Bytes) : Bytes :=
  if full.length < attachUuidLength then full else full.drop attachUuidLength

def openAttach (envelope : Bytes) (auth : Option AuthContext) (signingKey : Option Bytes) :
    Except OpaqueDataRejectedError Bytes := do
  let full ← openAttachFull crypto envelope auth signingKey
  .ok (stripUuid full)

def sealTransaction (plaintext attachEnvelope : Bytes) (auth : Option AuthContext)
    (signingKey : Option Bytes) (nonce : Nonce) : Bytes :=
  match signingKey with
  | none => plaintext
  | some key =>
      sealBytes crypto plaintext key (transactionAad auth attachEnvelope)
        transactionEnvelopeVersion nonce

end

/-! ## Opening what was minted -/

/-- What the AEAD library promises of every sealing: it opens under the same key, nonce and
associated data, and a tag of sixteen bytes is added to the plaintext. -/
structure LawfulAead (crypto : Primitives) : Prop where
  decrypts : ∀ key nonce aad plaintext,
    crypto.decrypt key nonce aad (crypto.encrypt key nonce aad plaintext) = some plaintext
  ciphertext_length : ∀ key nonce aad plaintext,
    (crypto.encrypt key nonce aad plaintext).length = plaintext.length + tagLength
  plaintext_length : ∀ key nonce aad ciphertext plaintext,
    crypto.decrypt key nonce aad ciphertext = some plaintext →
      ciphertext.length = plaintext.length + tagLength

theorem stripUuid_minted (uuid : AttachUuid) (plaintext : Bytes) :
    stripUuid (uuid.bytes ++ plaintext) = plaintext := by
  have long : ¬(uuid.bytes ++ plaintext).length < attachUuidLength := by
    simp [uuid.length_eq]
  rw [stripUuid, if_neg long, ← uuid.length_eq, List.drop_left]

theorem length_stripUuid_le (full : Bytes) : (stripUuid full).length ≤ full.length := by
  unfold stripUuid
  split
  · exact Nat.le_refl _
  · simp

theorem stripUuid_eq_iff (full : Bytes) :
    stripUuid full = full ↔ full.length < attachUuidLength := by
  unfold stripUuid
  split
  · rename_i short
    exact ⟨fun _ => short, fun _ => rfl⟩
  · rename_i long
    refine ⟨fun same => ?_, fun short => absurd short long⟩
    have lengths := congrArg List.length same
    rw [List.length_drop] at lengths
    simp only [attachUuidLength] at lengths long ⊢
    omega

section

variable (crypto : Primitives) (lawful : LawfulAead crypto)

include lawful

theorem openBytes_sealed (payload key aad : Bytes) (version : UInt8) (nonce : Nonce)
    (field : Text) :
    openBytes crypto (sealBytes crypto payload key aad version nonce) key aad version field =
      .ok payload := by
  apply openBytes_sealBytes
  · rw [lawful.ciphertext_length]
    exact Nat.le_add_left _ _
  · exact lawful.decrypts _ _ _ _

/-- An envelope is longer than what it opens to. -/
theorem length_of_openBytes (token key aad payload : Bytes) (version : UInt8) (field : Text)
    (opened : openBytes crypto token key aad version field = .ok payload) :
    token.length = payload.length + minEnvelopeLength := by
  obtain ⟨nonce, ciphertext, nonceLengthEq, rfl, decrypted⟩ := openBytes_ok _ _ _ _ _ _ _ opened
  have lengths := lawful.plaintext_length _ _ _ _ _ decrypted
  simp only [List.length_cons, List.length_append, nonceLengthEq, minEnvelopeLength]
  omega

theorem openAttachFull_sealAttach (plaintext : Bytes) (auth : Option AuthContext)
    (signingKey : Option Bytes) (uuid : AttachUuid) (nonce : Nonce) :
    openAttachFull crypto (sealAttach crypto plaintext auth signingKey uuid nonce) auth signingKey =
      .ok (uuid.bytes ++ plaintext) := by
  cases signingKey with
  | none => rfl
  | some key =>
      have nonempty : sealAttach crypto plaintext auth (some key) uuid nonce ≠ [] :=
        List.cons_ne_nil _ _
      rw [openAttachFull, if_neg nonempty]
      exact openBytes_sealed crypto lawful _ _ _ _ _ _

/-- The minting worker's key and caller give the catalog's own bytes back. -/
theorem openAttach_sealAttach (plaintext : Bytes) (auth : Option AuthContext)
    (signingKey : Option Bytes) (uuid : AttachUuid) (nonce : Nonce) :
    openAttach crypto (sealAttach crypto plaintext auth signingKey uuid nonce) auth signingKey =
      .ok plaintext := by
  rw [openAttach, openAttachFull_sealAttach crypto lawful, except_ok_bind, stripUuid_minted]

end

/-! ## A sample cipher -/

/-- A cipher that appends an empty tag and takes one off again. -/
def taggingAead : Primitives where
  sha256 := fun _ => List.replicate 32 0
  encrypt := fun _ _ _ plaintext => plaintext ++ List.replicate tagLength 0
  decrypt := fun _ _ _ ciphertext =>
    if tagLength ≤ ciphertext.length then some (ciphertext.take (ciphertext.length - tagLength))
    else none

theorem taggingAead_lawful : LawfulAead taggingAead where
  decrypts := by
    intro key nonce aad plaintext
    simp [taggingAead]
  ciphertext_length := by
    intro key nonce aad plaintext
    simp [taggingAead]
  plaintext_length := by
    intro key nonce aad ciphertext plaintext decrypted
    simp only [taggingAead] at decrypted
    split at decrypted
    · cases decrypted
      rw [List.length_take]
      omega
    · cases decrypted

def sampleUuid (first : UInt8) : AttachUuid where
  bytes := first :: List.replicate 15 9
  length_eq := by simp [attachUuidLength]

end VgiWorker.Protocol
