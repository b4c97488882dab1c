import VgiWorker.Crypto.SplitTokenProperties
import Mathlib.Logic.Relation

/-!
# Issued split tokens

A worker issues split tokens, and seals its other envelopes, under ideal
encryption. A run of it keeps account of every sealing, so a sealed token opens
only if it was issued.
-/

set_option autoImplicit false

namespace VgiWorker.Crypto

open VgiWorker.Js VgiWorker.IdealAead

structure IssuedToken where
  request : SplitTokenRequest
  token : Bytes

/-- What has been sealed so far, and the split tokens issued. -/
structure Vault where
  sealings : Log Bytes Bytes Bytes Bytes Bytes
  issued : List IssuedToken

/-- The primitives under which the vault's ciphertexts open, and no others. -/
def Vault.primitives (vault : Vault) (base : Primitives) : Primitives :=
  { base with decrypt := opened vault.sealings }

def SplitTokenRequest.body (request : SplitTokenRequest) : Bytes :=
  splitTokenBody request.signingKey.isSome request.fingerprint request.anchor

section

variable (base : Primitives)

def sealingOf (request : SplitTokenRequest) (key : Bytes) (nonce : Nonce) :
    Sealing Bytes Bytes Bytes Bytes Bytes where
  key := normalizeKey base key
  nonce := nonce.bytes
  associated := splitTokenAad request.body request.auth
  plaintext := request.payload
  ciphertext := base.encrypt (normalizeKey base key) nonce.bytes
    (splitTokenAad request.body request.auth) request.payload

/-- One seal of the worker: a split token, keyed or not, or an envelope of another kind.
No other associated data starts with the split-token version byte. -/
inductive Issuing : Vault → Vault → Prop
  | keyed (vault : Vault) (request : SplitTokenRequest) (key : Bytes) (nonce : Nonce) (token : Bytes)
      (holdsKey : request.signingKey = some key)
      (fresh : nonce.bytes ∉ vault.sealings.map (·.nonce))
      (built : buildSplitToken base request nonce = .ok token) :
      Issuing vault ⟨sealingOf base request key nonce :: vault.sealings, ⟨request, token⟩ :: vault.issued⟩
  | unkeyed (vault : Vault) (request : SplitTokenRequest) (nonce : Nonce) (token : Bytes)
      (noKey : request.signingKey = none) (built : buildSplitToken base request nonce = .ok token) :
      Issuing vault ⟨vault.sealings, ⟨request, token⟩ :: vault.issued⟩
  | other (vault : Vault) (sealing : Sealing Bytes Bytes Bytes Bytes Bytes)
      (fresh : sealing.nonce ∉ vault.sealings.map (·.nonce))
      (foreign : sealing.associated.head? ≠ some splitTokenFormatVersion) :
      Issuing vault ⟨sealing :: vault.sealings, vault.issued⟩

def Vault.Reachable (vault : Vault) : Prop :=
  Relation.ReflTransGen (Issuing base) ⟨[], []⟩ vault

/-- The issued token whose sealing is in the log. -/
structure IssuedSealing (issued : IssuedToken) (key : Bytes) (nonce : Nonce) : Prop where
  holdsKey : issued.request.signingKey = some key
  built : buildSplitToken base issued.request nonce = .ok issued.token

structure Vault.Sound (vault : Vault) : Prop where
  fresh : Fresh vault.sealings
  unkeyed : ∀ issued ∈ vault.issued, issued.request.signingKey = none →
    ∃ nonce, buildSplitToken base issued.request nonce = .ok issued.token
  keyed : ∀ issued ∈ vault.issued, ∀ key, issued.request.signingKey = some key →
    ∃ nonce, IssuedSealing base issued key nonce ∧
      sealingOf base issued.request key nonce ∈ vault.sealings
  accounted : ∀ sealing ∈ vault.sealings,
    sealing.associated.head? = some splitTokenFormatVersion →
    ∃ issued ∈ vault.issued, ∃ key nonce, IssuedSealing base issued key nonce ∧
      sealing = sealingOf base issued.request key nonce

theorem sound_issuing (vault next : Vault) (sound : vault.Sound base)
    (step : Issuing base vault next) : next.Sound base := by
  cases step with
  | keyed request key nonce token holdsKey fresh built =>
      refine ⟨List.nodup_cons.mpr ⟨fresh, sound.fresh⟩, ?_, ?_, ?_⟩
      · intro issued member noKey
        rcases List.mem_cons.mp member with rfl | earlier
        · exact ⟨nonce, built⟩
        · exact sound.unkeyed issued earlier noKey
      · intro issued member other otherKey
        rcases List.mem_cons.mp member with rfl | earlier
        · rw [holdsKey] at otherKey
          cases otherKey
          exact ⟨nonce, ⟨holdsKey, built⟩, List.mem_cons_self⟩
        · obtain ⟨itsNonce, issuedSealing, logged⟩ := sound.keyed issued earlier other otherKey
          exact ⟨itsNonce, issuedSealing, List.mem_cons_of_mem _ logged⟩
      · intro sealing member isSplit
        rcases List.mem_cons.mp member with rfl | earlier
        · exact ⟨_, List.mem_cons_self, key, nonce, ⟨holdsKey, built⟩, rfl⟩
        · obtain ⟨issued, issuedMem, rest⟩ := sound.accounted sealing earlier isSplit
          exact ⟨issued, List.mem_cons_of_mem _ issuedMem, rest⟩
  | unkeyed request nonce token noKey built =>
      refine ⟨sound.fresh, ?_, ?_, ?_⟩
      · intro issued member itsKey
        rcases List.mem_cons.mp member with rfl | earlier
        · exact ⟨nonce, built⟩
        · exact sound.unkeyed issued earlier itsKey
      · intro issued member key itsKey
        rcases List.mem_cons.mp member with rfl | earlier
        · rw [noKey] at itsKey
          cases itsKey
        · exact sound.keyed issued earlier key itsKey
      · intro sealing member isSplit
        obtain ⟨issued, issuedMem, rest⟩ := sound.accounted sealing member isSplit
        exact ⟨issued, List.mem_cons_of_mem _ issuedMem, rest⟩
  | other sealing fresh foreign =>
      refine ⟨List.nodup_cons.mpr ⟨fresh, sound.fresh⟩, sound.unkeyed, ?_, ?_⟩
      · intro issued member key itsKey
        obtain ⟨nonce, issuedSealing, logged⟩ := sound.keyed issued member key itsKey
        exact ⟨nonce, issuedSealing, List.mem_cons_of_mem _ logged⟩
      · intro candidate member isSplit
        rcases List.mem_cons.mp member with rfl | earlier
        · exact absurd isSplit foreign
        · exact sound.accounted candidate earlier isSplit

theorem sound_reachable (vault : Vault) (reachable : vault.Reachable base) : vault.Sound base := by
  induction reachable with
  | refl =>
      exact ⟨List.nodup_nil, fun _ member => absurd member List.not_mem_nil,
        fun _ member => absurd member List.not_mem_nil,
        fun _ member => absurd member List.not_mem_nil⟩
  | tail _ step sound => exact sound_issuing base _ _ sound step

/-! ## Opening against the vault -/

/-- The fingerprint and the anchor presented, where they are, are those of the request. -/
def SplitTokenPresented.Matches (presented : SplitTokenPresented) (request : SplitTokenRequest) :
    Prop :=
  (∀ expected ∈ presented.expectedFingerprint, expected = request.fingerprint) ∧
    ∀ current ∈ presented.currentAnchor, current = request.anchor

variable (vault : Vault) (sound : vault.Sound base)
  (tagged : ∀ key nonce aad plaintext,
    (base.encrypt key nonce aad plaintext).length = plaintext.length + tagLength)

include sound in
/-- What a sealed payload opens to was sealed by an issued token of the same header, for the
same caller. -/
theorem exists_issued_of_opened (fingerprint anchor rest key payload : Bytes)
    (auth : Option AuthContext) (lengthEq : fingerprint.length = fingerprintLength)
    (bound : anchor.length ≤ 0xffff)
    (success : openBytes (vault.primitives base) rest key
      (splitTokenAad (splitTokenBody true fingerprint anchor) auth) sealVersion (text "split token") =
        .ok payload) :
    ∃ issued ∈ vault.issued, ∃ itsKey nonce, IssuedSealing base issued itsKey nonce ∧
      sealingOf base issued.request itsKey nonce ∈ vault.sealings ∧
      issued.request.fingerprint = fingerprint ∧ issued.request.anchor = anchor ∧
      issued.request.payload = payload ∧ normalizeKey base itsKey = normalizeKey base key ∧
      identityTail issued.request.auth = identityTail auth ∧
      rest = sealBytes base payload itsKey (splitTokenAad issued.request.body issued.request.auth)
        sealVersion nonce := by
  obtain ⟨nonceBytes, ciphertext, _, restIs, decrypted⟩ := openBytes_ok _ _ _ _ _ _ _ success
  have logged := exists_of_opened vault.sealings _ _ _ _ _ decrypted
  obtain ⟨issued, issuedMem, itsKey, nonce, issuedSealing, same⟩ := sound.accounted _ logged rfl
  obtain ⟨itsLength, itsBound, _⟩ := buildSplitToken_ok base _ _ _ issuedSealing.built
  have isKeyed : issued.request.signingKey.isSome = true := by
    rw [issuedSealing.holdsKey]
    rfl
  have sealing := same
  injection same with sameKey sameNonce sameAad samePayload sameCiphertext
  have bodyIs : issued.request.body =
      splitTokenBody true issued.request.fingerprint issued.request.anchor := by
    rw [SplitTokenRequest.body, isKeyed]
  unfold splitTokenAad at sameAad
  rw [bodyIs] at sameAad
  obtain ⟨_, sameFingerprint, sameAnchor, sameTail⟩ :=
    splitTokenBody_injective _ _ _ _ _ _ _ _ lengthEq itsLength bound itsBound sameAad
  refine ⟨issued, issuedMem, itsKey, nonce, issuedSealing, sealing ▸ logged, sameFingerprint.symm,
    sameAnchor.symm, samePayload.symm, sameKey.symm, sameTail.symm, ?_⟩
  rw [restIs, sealBytes, sameNonce, sameCiphertext, samePayload]

include sound in
theorem openSplitToken_issued_only (token payload key : Bytes) (presented : SplitTokenPresented)
    (holdsKey : presented.signingKey = some key)
    (success : openSplitToken (vault.primitives base) token presented = .ok payload) :
    ∃ issued ∈ vault.issued, issued.token = token ∧ issued.request.payload = payload ∧
      presented.Matches issued.request ∧
      identityTail issued.request.auth = identityTail presented.auth ∧
      ∃ itsKey nonce, IssuedSealing base issued itsKey nonce ∧
        sealingOf base issued.request itsKey nonce ∈ vault.sealings ∧
        normalizeKey base itsKey = normalizeKey base key := by
  obtain ⟨fingerprint, anchor, rest, lengthEq, bound, tokenIs, fingerprintMatches, anchorMatches,
    payloadOk⟩ := openSplitToken_ok _ token presented payload success
  rw [holdsKey] at tokenIs payloadOk
  simp only [openSplitPayload, holdsKey] at payloadOk
  split at payloadOk
  · rename_i unsealed opensTo
    cases payloadOk
    obtain ⟨issued, issuedMem, itsKey, nonce, issuedSealing, logged, rfl, rfl, rfl, sameKey, sameTail,
      restIs⟩ := exists_issued_of_opened base vault sound fingerprint anchor rest key _
        presented.auth lengthEq bound opensTo
    refine ⟨issued, issuedMem, ?_, rfl, ⟨fingerprintMatches, anchorMatches⟩, sameTail, itsKey, nonce,
      issuedSealing, logged, sameKey⟩
    obtain ⟨_, _, itsToken⟩ := buildSplitToken_ok base _ _ _ issuedSealing.built
    rw [issuedSealing.holdsKey] at itsToken
    rw [itsToken, tokenIs, restIs, SplitTokenRequest.body, issuedSealing.holdsKey]
    rfl
  · cases payloadOk

private theorem openSplitPayload_opened (crypto : Primitives) (body rest : Bytes)
    (presented : SplitTokenPresented) (signingKey : Bytes)
    (key : presented.signingKey = some signingKey) (payload : Bytes)
    (opensTo : openBytes crypto rest signingKey (splitTokenAad body presented.auth) sealVersion
      (text "split token") = .ok payload) :
    openSplitPayload crypto body rest presented = .ok payload := by
  simp only [openSplitPayload, key, opensTo]

include sound tagged in
theorem openSplitToken_issued (issued : IssuedToken) (member : issued ∈ vault.issued)
    (presented : SplitTokenPresented) (sameKey : presented.signingKey = issued.request.signingKey)
    (sameAuth : presented.auth = issued.request.auth) (matching : presented.Matches issued.request) :
    openSplitToken (vault.primitives base) issued.token presented = .ok issued.request.payload := by
  have opensWith (nonce : Nonce)
      (built : buildSplitToken base issued.request nonce = .ok issued.token)
      (logged : ∀ key, issued.request.signingKey = some key →
        sealingOf base issued.request key nonce ∈ vault.sealings) :
      openSplitToken (vault.primitives base) issued.token presented =
        .ok issued.request.payload := by
    obtain ⟨lengthEq, bound, tokenIs⟩ := buildSplitToken_ok base _ _ _ built
    rw [tokenIs, ← sameKey, openSplitToken_body _ _ _ _ presented lengthEq bound,
      (checkSplitBinding_ok _ _ presented).mpr matching]
    change openSplitPayload _ _ _ presented = _
    cases key : presented.signingKey with
    | none => simp only [openSplitPayload, key]
    | some signingKey =>
        have holdsKey : issued.request.signingKey = some signingKey := by rw [← sameKey, key]
        have bodyIs : issued.request.body =
            splitTokenBody true issued.request.fingerprint issued.request.anchor := by
          rw [SplitTokenRequest.body, holdsKey]
          rfl
        have decrypts := opened_of_mem vault.sealings sound.fresh _ (logged signingKey holdsKey)
        simp only [sealingOf, bodyIs] at decrypts
        have opensTo := openBytes_sealBytes (vault.primitives base) issued.request.payload signingKey
          (splitTokenAad (splitTokenBody true issued.request.fingerprint issued.request.anchor)
            issued.request.auth) sealVersion nonce (text "split token")
          (by change _ ≤ (base.encrypt _ _ _ _).length; rw [tagged]; omega) decrypts
        rw [← sameAuth] at opensTo ⊢
        exact openSplitPayload_opened (vault.primitives base) _ _ presented signingKey key _ opensTo
  cases holdsKey : issued.request.signingKey with
  | none =>
      obtain ⟨nonce, built⟩ := sound.unkeyed issued member holdsKey
      refine opensWith nonce built fun key itsKey => ?_
      rw [holdsKey] at itsKey
      cases itsKey
  | some key =>
      obtain ⟨nonce, issuedSealing, logged⟩ := sound.keyed issued member key holdsKey
      refine opensWith nonce issuedSealing.built fun other itsKey => ?_
      rw [holdsKey] at itsKey
      cases itsKey
      exact logged

include sound in
/-- Neither a proper prefix nor a proper extension of a sealed token opens. -/
theorem openSplitToken_cut_or_extended (issued : IssuedToken) (member : issued ∈ vault.issued)
    (isSealed : issued.request.signingKey.isSome) (token : Bytes) (presented : SplitTokenPresented)
    (different : token ≠ issued.token)
    (comparable : token <+: issued.token ∨ issued.token <+: token) :
    ∃ fault, openSplitToken (vault.primitives base) token presented = .error fault := by
  cases outcome : openSplitToken (vault.primitives base) token presented with
  | error fault => exact ⟨fault, rfl⟩
  | ok payload =>
      obtain ⟨key, holdsKey⟩ := Option.isSome_iff_exists.mp isSealed
      obtain ⟨nonce, issuedSealing, logged⟩ := sound.keyed issued member key holdsKey
      obtain ⟨itsLength, itsBound, itsToken⟩ := buildSplitToken_ok base _ _ _ issuedSealing.built
      rw [holdsKey] at itsToken
      obtain ⟨fingerprint, anchor, rest, lengthEq, bound, tokenIs, _, _, payloadOk⟩ :=
        openSplitToken_ok _ token presented payload outcome
      obtain ⟨cut, extension, whole⟩ : ∃ cut extension, token ++ cut = issued.token ++ extension := by
        rcases comparable with ⟨cut, whole⟩ | ⟨extension, whole⟩
        · exact ⟨cut, [], by rw [List.append_nil]; exact whole⟩
        · exact ⟨[], extension, by rw [List.append_nil]; exact whole.symm⟩
      have layouts := whole
      rw [tokenIs, itsToken, List.append_assoc, List.append_assoc] at layouts
      obtain ⟨presentedSealed, sameFingerprint, sameAnchor, sameRest⟩ :=
        splitTokenBody_injective _ _ _ _ _ _ _ _ lengthEq itsLength bound itsBound layouts
      obtain ⟨presentedKey, presentedHolds⟩ := Option.isSome_iff_exists.mp presentedSealed
      rw [presentedHolds] at payloadOk tokenIs
      simp only [openSplitPayload, presentedHolds, Option.isSome_some] at payloadOk
      split at payloadOk
      · rename_i unsealed opensTo
        obtain ⟨other, _, otherKey, otherNonce, _, otherLogged, _, _, payloadIs, _, _, restIs⟩ :=
          exists_issued_of_opened base vault sound fingerprint anchor rest presentedKey unsealed
            presented.auth lengthEq bound opensTo
        rw [← payloadIs] at restIs
        have restShape : rest = sealVersion :: ((sealingOf base other.request otherKey otherNonce).nonce ++
            (sealingOf base other.request otherKey otherNonce).ciphertext) := restIs
        have itsShape : issued.token =
            splitTokenBody true issued.request.fingerprint issued.request.anchor ++
              sealVersion :: ((sealingOf base issued.request key nonce).nonce ++
                (sealingOf base issued.request key nonce).ciphertext) := by
          have bodyIs : issued.request.body =
              splitTokenBody true issued.request.fingerprint issued.request.anchor := by
            rw [SplitTokenRequest.body, holdsKey]
            rfl
          rw [itsToken, sealingOf, bodyIs]
          rfl
        -- The nonces stand at the same place, and no nonce was drawn twice.
        rw [restShape] at sameRest
        unfold sealBytes at sameRest
        simp only [List.cons_append, List.append_assoc] at sameRest
        obtain ⟨_, sameRest⟩ := List.cons.inj sameRest
        obtain ⟨sameNonce, _⟩ := List.append_inj sameRest
          (otherNonce.length_eq.trans nonce.length_eq.symm)
        have same := sound.fresh.eq_of_nonce _ _ otherLogged logged sameNonce
        refine absurd ?_ different
        rw [tokenIs, itsShape, restShape, same, sameFingerprint, sameAnchor]
        rfl
      · cases payloadOk

end

/-- Under ideal encryption an issued token opens to its payload for the same key, caller and
binding; a keyed worker opens issued tokens only, and an unkeyed one only what it would
build; whatever does not open throws a split-token error. -/
theorem split_token_acceptance (base : Primitives)
    (tagged : ∀ key nonce aad plaintext,
      (base.encrypt key nonce aad plaintext).length = plaintext.length + tagLength)
    (vault : Vault) (reachable : vault.Reachable base) :
    (∀ issued ∈ vault.issued, ∀ presented : SplitTokenPresented,
        presented.signingKey = issued.request.signingKey → presented.auth = issued.request.auth →
        presented.Matches issued.request →
        openSplitToken (vault.primitives base) issued.token presented =
          .ok issued.request.payload) ∧
      (∀ token presented payload key, presented.signingKey = some key →
        openSplitToken (vault.primitives base) token presented = .ok payload →
        ∃ issued ∈ vault.issued, issued.token = token ∧ issued.request.payload = payload ∧
          presented.Matches issued.request ∧
          identityTail issued.request.auth = identityTail presented.auth ∧
          ∃ itsKey, issued.request.signingKey = some itsKey ∧
            normalizeKey base itsKey = normalizeKey base key) ∧
      (∀ token presented payload, presented.signingKey = none →
        openSplitToken (vault.primitives base) token presented = .ok payload →
        ∃ request, request.signingKey = none ∧ request.payload = payload ∧
          presented.Matches request ∧ ∀ nonce, buildSplitToken base request nonce = .ok token) ∧
      (∀ token presented,
        FailsAsSplitTokenError (openSplitToken (vault.primitives base) token presented)) ∧
      ∀ issued ∈ vault.issued, issued.request.signingKey.isSome → ∀ token presented,
        token ≠ issued.token → token <+: issued.token ∨ issued.token <+: token →
        ∃ fault, openSplitToken (vault.primitives base) token presented = .error fault := by
  have sound := sound_reachable base vault reachable
  refine ⟨openSplitToken_issued base vault sound tagged, ?_, ?_,
    failsAs_openSplitToken (vault.primitives base),
    openSplitToken_cut_or_extended base vault sound⟩
  · intro token presented payload key holdsKey success
    obtain ⟨issued, member, tokenIs, payloadIs, matching, sameTail, itsKey, _, issuedSealing, _, sameKey⟩ :=
      openSplitToken_issued_only base vault sound token payload key presented holdsKey success
    exact ⟨issued, member, tokenIs, payloadIs, matching, sameTail, itsKey, issuedSealing.holdsKey,
      sameKey⟩
  · intro token presented payload noKey success
    obtain ⟨fingerprint, anchor, rest, lengthEq, bound, tokenIs, fingerprintMatches, anchorMatches,
      payloadOk⟩ := openSplitToken_ok _ token presented payload success
    simp only [openSplitPayload, noKey] at payloadOk
    cases payloadOk
    refine ⟨⟨payload, fingerprint, anchor, none, presented.auth⟩, rfl, rfl,
      ⟨fingerprintMatches, anchorMatches⟩, fun nonce => ?_⟩
    rw [tokenIs, noKey]
    exact buildSplitToken_unkeyed base fingerprint anchor payload presented.auth nonce lengthEq bound

/-! ## A sample worker -/

/-- A cipher that appends an empty tag. -/
def samplePrimitives : Primitives where
  sha256 := fun _ => List.replicate 32 0
  encrypt := fun _ _ _ plaintext => plaintext ++ List.replicate tagLength 0
  decrypt := fun _ _ _ _ => none

def sampleNonce : Nonce := ⟨List.replicate nonceLength 7, rfl⟩

def sampleRequest (signingKey : Option Bytes) : SplitTokenRequest where
  payload := [1, 2, 3]
  fingerprint := List.replicate fingerprintLength 9
  anchor := [5]
  signingKey := signingKey
  auth := some ⟨true, some (text "jwt"), some (text "alice")⟩

def sampleKey : Bytes := List.replicate 32 1

def samplePresented (signingKey : Option Bytes) : SplitTokenPresented where
  signingKey := signingKey
  auth := (sampleRequest signingKey).auth
  expectedFingerprint := some (List.replicate fingerprintLength 9)
  currentAnchor := some [5]

theorem split_token_acceptance_sample : ∃ (token : Bytes) (vault : Vault),
    buildSplitToken samplePrimitives (sampleRequest (some sampleKey)) sampleNonce = .ok token ∧
      vault.Reachable samplePrimitives ∧
      openSplitToken (vault.primitives samplePrimitives) token (samplePresented (some sampleKey)) =
        .ok [1, 2, 3] := by
  obtain ⟨token, built⟩ : ∃ token,
      buildSplitToken samplePrimitives (sampleRequest (some sampleKey)) sampleNonce = .ok token :=
    ⟨_, rfl⟩
  have reachable : Vault.Reachable samplePrimitives
      ⟨[sealingOf samplePrimitives (sampleRequest (some sampleKey)) sampleKey sampleNonce],
        [⟨sampleRequest (some sampleKey), token⟩]⟩ :=
    .single (.keyed ⟨[], []⟩ _ _ _ _ rfl List.not_mem_nil built)
  have tagged : ∀ key nonce aad plaintext,
      (samplePrimitives.encrypt key nonce aad plaintext).length =
        plaintext.length + tagLength := by
    intro key nonce aad plaintext
    simp [samplePrimitives]
  obtain ⟨opens, _⟩ := split_token_acceptance samplePrimitives tagged _ reachable
  exact ⟨token, _, built, reachable, opens _ List.mem_cons_self (samplePresented (some sampleKey)) rfl rfl
    ⟨by simp [samplePresented, sampleRequest], by simp [samplePresented, sampleRequest]⟩⟩

/-- An unkeyed worker opens an extension of a token it built, as a longer payload. -/
theorem unkeyed_extension_opens : ∃ token,
    buildSplitToken samplePrimitives (sampleRequest none) sampleNonce = .ok token ∧
      openSplitToken samplePrimitives token (samplePresented none) = .ok [1, 2, 3] ∧
      openSplitToken samplePrimitives (token ++ [4]) (samplePresented none) = .ok [1, 2, 3, 4] := by
  refine ⟨splitTokenBody false (List.replicate fingerprintLength 9) [5] ++ [1, 2, 3], ?_, ?_, ?_⟩ <;>
    decide +kernel

end VgiWorker.Crypto
