import VgiWorker.Data.Delimited
import VgiWorker.Js.Bytes

/-!
# Opaque-data envelopes

The AEAD envelope `version || nonce || ciphertext`, the caller identity its
associated data carries, and how it is opened.
-/

set_option autoImplicit false

namespace VgiWorker.Crypto

open VgiWorker.Js

/-- SHA-256 and XChaCha20-Poly1305, as the crypto libraries provide them. -/
structure Primitives where
  sha256 : Bytes → Bytes
  encrypt : (key nonce aad plaintext : Bytes) → Bytes
  decrypt : (key nonce aad ciphertext : Bytes) → Option Bytes

def attachEnvelopeVersion : UInt8 := 2

def transactionEnvelopeVersion : UInt8 := 2

/-- The framework's own prefix of an attach plaintext. -/
def attachUuidLength : Nat := 16

def nonceLength : Nat := 24

def tagLength : Nat := 16

def minEnvelopeLength : Nat := 1 + nonceLength + tagLength

/-- A drawn nonce. -/
structure Nonce where
  bytes : Bytes
  length_eq : bytes.length = nonceLength

structure AuthContext where
  authenticated : Bool
  domain : Option Text
  principal : Option Text
  deriving DecidableEq

/-- `<field> not recognized`, whatever the cause. -/
structure OpaqueDataRejectedError where
  field : Text
  deriving DecidableEq

def OpaqueDataRejectedError.message (fault : OpaqueDataRejectedError) : Text :=
  fault.field ++ text " not recognized"

def identityTail (auth : Option AuthContext) : Bytes :=
  match auth with
  | some ⟨true, domain, principal⟩ =>
      1 :: (utf8Encode (domain.getD []) ++ 0 :: utf8Encode (principal.getD []))
  | _ => 0 :: utf8Encode (text "anonymous")

def attachAad (auth : Option AuthContext) : Bytes :=
  utf8Encode (text "vgi.attach_opaque_data.v1") ++ 0 :: identityTail auth

def transactionAad (auth : Option AuthContext) (attachEnvelope : Bytes) : Bytes :=
  utf8Encode (text "vgi.transaction_opaque_data.v1") ++
    0 :: (identityTail auth ++ 0 :: attachEnvelope)

section

variable (crypto : Primitives)

def normalizeKey (key : Bytes) : Bytes :=
  if key.length = 32 then key else crypto.sha256 key

def sealBytes (payload key aad : Bytes) (version : UInt8) (nonce : Nonce) : Bytes :=
  version :: (nonce.bytes ++ crypto.encrypt (normalizeKey crypto key) nonce.bytes aad payload)

def openBytes (token key aad : Bytes) (version : UInt8) (field : Text) :
    Except OpaqueDataRejectedError Bytes :=
  if token.length < minEnvelopeLength ∨ token.head? ≠ some version then .error ⟨field⟩
  else
    let nonce := (token.drop 1).take nonceLength
    let ciphertext := token.drop (1 + nonceLength)
    match crypto.decrypt (normalizeKey crypto key) nonce aad ciphertext with
    | some payload => .ok payload
    | none => .error ⟨field⟩

end

/-! ## Opening what was sealed -/

theorem openBytes_ok (crypto : Primitives) (token key aad : Bytes) (version : UInt8) (field : Text)
    (payload : Bytes) (success : openBytes crypto token key aad version field = .ok payload) :
    ∃ nonce ciphertext, nonce.length = nonceLength ∧ token = version :: (nonce ++ ciphertext) ∧
      crypto.decrypt (normalizeKey crypto key) nonce aad ciphertext = some payload := by
  unfold openBytes at success
  split at success
  · cases success
  · rename_i accepted
    obtain ⟨long, first⟩ := not_or.mp accepted
    have first := not_not.mp first
    cases token with
    | nil => cases first
    | cons head rest =>
        cases first
        simp only [List.drop_succ_cons, List.drop_zero, Nat.add_comm 1 nonceLength] at success
        have restLength : nonceLength ≤ rest.length := by
          rw [List.length_cons, minEnvelopeLength] at long
          omega
        refine ⟨rest.take nonceLength, rest.drop nonceLength, ?_, ?_, ?_⟩
        · rw [List.length_take, Nat.min_eq_left restLength]
        · rw [List.take_append_drop]
        · split at success
          · rename_i found
            cases success
            exact found
          · cases success

theorem openBytes_envelope (crypto : Primitives) (key aad nonce ciphertext : Bytes)
    (version : UInt8) (field : Text) (nonceLengthEq : nonce.length = nonceLength)
    (tagged : tagLength ≤ ciphertext.length) :
    openBytes crypto (version :: (nonce ++ ciphertext)) key aad version field =
      match crypto.decrypt (normalizeKey crypto key) nonce aad ciphertext with
      | some payload => .ok payload
      | none => .error ⟨field⟩ := by
  have long : ¬((version :: (nonce ++ ciphertext)).length < minEnvelopeLength ∨
      (version :: (nonce ++ ciphertext)).head? ≠ some version) := by
    rw [not_or, not_not]
    refine ⟨?_, rfl⟩
    rw [List.length_cons, List.length_append, nonceLengthEq, minEnvelopeLength]
    omega
  unfold openBytes
  rw [if_neg long]
  simp [← nonceLengthEq, Nat.add_comm 1 nonce.length]

/-- An envelope opens to what was sealed, under a cipher that decrypts it. -/
theorem openBytes_sealBytes (crypto : Primitives) (payload key aad : Bytes) (version : UInt8)
    (nonce : Nonce) (field : Text)
    (tagged : tagLength ≤
      (crypto.encrypt (normalizeKey crypto key) nonce.bytes aad payload).length)
    (decrypts : crypto.decrypt (normalizeKey crypto key) nonce.bytes aad
      (crypto.encrypt (normalizeKey crypto key) nonce.bytes aad payload) = some payload) :
    openBytes crypto (sealBytes crypto payload key aad version nonce) key aad version field =
      .ok payload := by
  unfold sealBytes
  rw [openBytes_envelope crypto key aad _ _ version field nonce.length_eq tagged, decrypts]

/-! ## The caller identity -/

/-- The tail tells callers apart when their domains hold no U+0000. -/
theorem identityTail_injective (domain principal domain' principal' : Option Text)
    (domainFree : (0 : UInt8) ∉ utf8Encode (domain.getD []))
    (domainFree' : (0 : UInt8) ∉ utf8Encode (domain'.getD []))
    (same : identityTail (some ⟨true, domain, principal⟩) =
      identityTail (some ⟨true, domain', principal'⟩)) :
    utf8Encode (domain.getD []) = utf8Encode (domain'.getD []) ∧
      utf8Encode (principal.getD []) = utf8Encode (principal'.getD []) :=
  append_delimiter_inj 0 _ _ _ _ domainFree domainFree' (List.cons.inj same).2

end VgiWorker.Crypto
