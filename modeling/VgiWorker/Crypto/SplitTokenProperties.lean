import VgiWorker.Crypto.SplitToken
import VgiWorker.Data.IdealAead
import VgiWorker.Data.Result

/-!
# What a split token opens to

A token opens exactly when its header, binding and payload are those of a token
the worker built. Under ideal encryption a sealed token opens only if the worker
issued it, for the same caller.
-/

set_option autoImplicit false

namespace VgiWorker.Crypto

open VgiWorker.Js VgiWorker.IdealAead

/-! ## The checks -/

private theorem refuseToken_ok (condition : Prop) [Decidable condition] (message : Text)
    (result : Unit) (success : refuseToken condition message = .ok result) : ¬condition := by
  unfold refuseToken at success
  split at success
  · cases success
  · assumption

private theorem refuseToken_pass (condition : Prop) [Decidable condition] (message : Text)
    (holds : ¬condition) : refuseToken condition message = .ok () :=
  if_neg holds

/-- The failures that leave the split-token code. -/
def SplitFault.IsSplitTokenError (fault : SplitFault) : Prop :=
  ∃ kind message, fault = .splitTokenError kind message

/-- A step whose failures are all split-token errors. -/
def FailsAsSplitTokenError {α : Type} (step : Except SplitFault α) : Prop :=
  ∀ fault, step = .error fault → fault.IsSplitTokenError

theorem failsAs_ok {α : Type} (value : α) : FailsAsSplitTokenError (.ok value) := by
  intro fault failure
  cases failure

theorem failsAs_error {α : Type} (kind : SplitTokenErrorKind) (message : Text) :
    FailsAsSplitTokenError (.error (.splitTokenError kind message) : Except SplitFault α) := by
  intro fault failure
  cases failure
  exact ⟨kind, message, rfl⟩

theorem failsAs_bind {α β : Type} (step : Except SplitFault α) (next : α → Except SplitFault β)
    (first : FailsAsSplitTokenError step)
    (second : ∀ value, step = .ok value → FailsAsSplitTokenError (next value)) :
    FailsAsSplitTokenError (step >>= next) := by
  cases step with
  | error fault => exact fun other failure => first other (by cases failure; rfl)
  | ok value => exact second value rfl

theorem failsAs_refuseToken (condition : Prop) [Decidable condition] (message : Text) :
    FailsAsSplitTokenError (refuseToken condition message) := by
  unfold refuseToken
  split
  · exact failsAs_error _ _
  · exact failsAs_ok ()

theorem failsAs_checkSplitHeader (version flags : UInt8) (signingKey : Option Bytes) :
    FailsAsSplitTokenError (checkSplitHeader version flags signingKey) := by
  unfold checkSplitHeader
  refine failsAs_bind _ _ (failsAs_refuseToken _ _) fun _ _ => ?_
  refine failsAs_bind _ _ (failsAs_refuseToken _ _) fun _ _ => ?_
  refine failsAs_bind _ _ (failsAs_refuseToken _ _) fun _ _ => ?_
  exact failsAs_refuseToken _ _

theorem failsAs_checkSplitBinding (fingerprint anchor : Bytes) (presented : SplitTokenPresented) :
    FailsAsSplitTokenError (checkSplitBinding fingerprint anchor presented) := by
  unfold checkSplitBinding
  refine failsAs_bind _ _ (failsAs_refuseToken _ _) fun _ _ => ?_
  split
  · exact failsAs_error _ _
  · exact failsAs_ok ()

theorem failsAs_openSplitPayload (crypto : Primitives) (body rest : Bytes)
    (presented : SplitTokenPresented) :
    FailsAsSplitTokenError (openSplitPayload crypto body rest presented) := by
  unfold openSplitPayload
  split
  · exact failsAs_ok _
  · split
    · exact failsAs_ok _
    · exact failsAs_error _ _

/-- Whatever the bytes, a token that does not open throws a split-token error. -/
theorem failsAs_openSplitToken (crypto : Primitives) (token : Bytes)
    (presented : SplitTokenPresented) :
    FailsAsSplitTokenError (openSplitToken crypto token presented) := by
  unfold openSplitToken
  refine failsAs_bind _ _ (failsAs_refuseToken _ _) fun _ long => ?_
  have long := not_lt.mp (refuseToken_ok _ _ _ long)
  refine failsAs_bind _ _ ?_ fun anchorLength _ => ?_
  · -- The length check leaves the anchor length in range.
    have enough : ¬(token.drop 2).length < 2 := by
      rw [List.length_drop]
      have header : headerLength = 20 := rfl
      omega
    intro fault failure
    simp only [getUint16, takeInt, takeBytes, if_neg enough, Option.map_some] at failure
    cases failure
  refine failsAs_bind _ _ (failsAs_checkSplitHeader _ _ _) fun _ _ => ?_
  refine failsAs_bind _ _ (failsAs_refuseToken _ _) fun _ _ => ?_
  refine failsAs_bind _ _ (failsAs_checkSplitBinding _ _ _) fun _ _ => ?_
  exact failsAs_openSplitPayload crypto _ _ presented

/-! ## The header -/

theorem length_splitTokenBody (isSealed : Bool) (fingerprint anchor : Bytes) :
    (splitTokenBody isSealed fingerprint anchor).length =
      4 + fingerprint.length + anchor.length := by
  simp only [splitTokenBody, List.length_cons, List.length_append, length_leBytes]
  omega

private theorem flags_of_unreserved (flags : UInt8) (unreserved : flags &&& reservedFlagsMask = 0) :
    flags = 0 ∨ flags = 1 := by
  have cases256 : ∀ value < 256, value &&& 254 = 0 → value = 0 ∨ value = 1 := by
    decide +kernel
  have masked : flags.toNat &&& 254 = 0 := by
    have asNat := congrArg UInt8.toNat unreserved
    rwa [UInt8.toNat_and] at asNat
  rcases cases256 flags.toNat flags.toNat_lt masked with zero | one
  · exact Or.inl (UInt8.toNat.inj zero)
  · exact Or.inr (UInt8.toNat.inj one)

theorem checkSplitHeader_ok (version flags : UInt8) (signingKey : Option Bytes) (result : Unit)
    (success : checkSplitHeader version flags signingKey = .ok result) :
    version = splitTokenFormatVersion ∧
      flags = if signingKey.isSome then flagPayloadSealed else 0 := by
  obtain ⟨_, versionOk, success⟩ := except_bind_ok _ _ _ success
  obtain ⟨_, reservedOk, success⟩ := except_bind_ok _ _ _ success
  obtain ⟨_, unsealedOk, sealedOk⟩ := except_bind_ok _ _ _ success
  refine ⟨not_not.mp (refuseToken_ok _ _ _ versionOk), ?_⟩
  have unsealed := refuseToken_ok _ _ _ unsealedOk
  have isSealed := refuseToken_ok _ _ _ sealedOk
  cases signingKey with
  | none =>
      rcases flags_of_unreserved flags (not_not.mp (refuseToken_ok _ _ _ reservedOk)) with rfl | rfl
      · rfl
      · exact absurd ⟨rfl, by decide⟩ isSealed
  | some key =>
      rcases flags_of_unreserved flags (not_not.mp (refuseToken_ok _ _ _ reservedOk)) with rfl | rfl
      · exact absurd ⟨rfl, by decide⟩ unsealed
      · rfl

theorem checkSplitHeader_own (signingKey : Option Bytes) :
    checkSplitHeader splitTokenFormatVersion
      (if signingKey.isSome then flagPayloadSealed else 0) signingKey = .ok () := by
  unfold checkSplitHeader
  cases signingKey with
  | none => rfl
  | some key =>
      simp only [Option.isSome_some, if_true]
      rw [refuseToken_pass _ _ (by decide), refuseToken_pass _ _ (by decide),
        refuseToken_pass _ _ (by decide), refuseToken_pass _ _ nofun]
      rfl

theorem checkSplitBinding_ok (fingerprint anchor : Bytes) (presented : SplitTokenPresented) :
    checkSplitBinding fingerprint anchor presented = .ok () ↔
      (∀ expected ∈ presented.expectedFingerprint, expected = fingerprint) ∧
        ∀ current ∈ presented.currentAnchor, current = anchor := by
  have absent (offered : Option Bytes) (held : Bytes) :
      (¬offered.any (· ≠ held) = true) ↔ ∀ value ∈ offered, value = held := by
    cases offered <;> simp
  unfold checkSplitBinding refuseToken
  rw [← absent, ← absent]
  split
  · rename_i mismatch
    exact ⟨fun success => (by cases success), fun both => absurd mismatch both.1⟩
  · rename_i matched
    change (if _ then _ else _) = _ ↔ _
    split
    · rename_i moved
      exact ⟨fun success => (by cases success), fun both => absurd moved both.2⟩
    · rename_i current
      exact ⟨fun _ => ⟨matched, current⟩, fun _ => rfl⟩

/-- A token of the worker's own layout is opened by its binding and its payload. -/
theorem openSplitToken_body (crypto : Primitives) (fingerprint anchor rest : Bytes)
    (presented : SplitTokenPresented) (fingerprintLengthEq : fingerprint.length = fingerprintLength)
    (anchorBound : anchor.length ≤ 0xffff) :
    openSplitToken crypto (splitTokenBody presented.signingKey.isSome fingerprint anchor ++ rest)
        presented =
      (checkSplitBinding fingerprint anchor presented >>= fun _ =>
        openSplitPayload crypto (splitTokenBody presented.signingKey.isSome fingerprint anchor) rest
          presented) := by
  have bodyLength := length_splitTokenBody presented.signingKey.isSome fingerprint anchor
  have ends : headerLength + anchor.length =
      (splitTokenBody presented.signingKey.isSome fingerprint anchor).length := by
    rw [bodyLength, fingerprintLengthEq]
    rfl
  generalize bodyIs : splitTokenBody presented.signingKey.isSome fingerprint anchor = body at ends ⊢
  have long : ¬(body ++ rest).length < headerLength := by
    rw [List.length_append]
    omega
  have version : (body ++ rest).getD 0 0 = splitTokenFormatVersion := by
    rw [← bodyIs]
    rfl
  have flags : (body ++ rest).getD 1 0 =
      if presented.signingKey.isSome then flagPayloadSealed else 0 := by
    rw [← bodyIs]
    rfl
  have afterFlags : (body ++ rest).drop 2 =
      leBytes 2 anchor.length ++ (fingerprint ++ anchor ++ rest) := by
    rw [← bodyIs]
    simp [splitTokenBody]
  have anchorLength : getUint16 (body ++ rest) 2 = .ok anchor.length := by
    rw [getUint16, afterFlags, takeInt_leBytes_of_lt 2 _ _ (by omega)]
  have within : ¬(body ++ rest).length < headerLength + anchor.length := by
    rw [List.length_append]
    omega
  have wholeBody : (body ++ rest).take (headerLength + anchor.length) = body := by
    rw [ends, List.take_left']
    rfl
  have afterBody : (body ++ rest).drop (headerLength + anchor.length) = rest := by
    rw [ends, List.drop_left']
    rfl
  have header : body =
      splitTokenFormatVersion :: (if presented.signingKey.isSome then flagPayloadSealed else 0) ::
        (leBytes 2 anchor.length ++ fingerprint) ++ anchor := by
    rw [← bodyIs, splitTokenBody, List.append_assoc]
    simp
  have fingerprintIs : ((body ++ rest).take headerLength).drop 4 = fingerprint := by
    rw [List.take_append_of_le_length (by omega), header, List.take_left']
    · simp [leBytes]
    · simp [fingerprintLengthEq, headerLength, fingerprintLength, leBytes]
  have anchorIs : body.drop headerLength = anchor := by
    rw [header, List.drop_left']
    simp [fingerprintLengthEq, headerLength, fingerprintLength, leBytes]
  unfold openSplitToken
  rw [refuseToken_pass _ _ long, version, flags, anchorLength]
  change (checkSplitHeader _ _ _ >>= fun _ => _) = _
  rw [checkSplitHeader_own]
  change (refuseToken _ _ >>= fun _ => _) = _
  rw [refuseToken_pass _ _ within]
  change (checkSplitBinding _ _ _ >>= fun _ => _) = _
  rw [fingerprintIs, wholeBody, anchorIs, afterBody]

/-- What opens has the worker's own layout, its binding and a payload that opens. -/
theorem openSplitToken_ok (crypto : Primitives) (token : Bytes) (presented : SplitTokenPresented)
    (payload : Bytes) (success : openSplitToken crypto token presented = .ok payload) :
    ∃ fingerprint anchor rest,
      fingerprint.length = fingerprintLength ∧ anchor.length ≤ 0xffff ∧
      token = splitTokenBody presented.signingKey.isSome fingerprint anchor ++ rest ∧
      (∀ expected ∈ presented.expectedFingerprint, expected = fingerprint) ∧
      (∀ current ∈ presented.currentAnchor, current = anchor) ∧
      openSplitPayload crypto (splitTokenBody presented.signingKey.isSome fingerprint anchor) rest
        presented = .ok payload := by
  have opened := success
  obtain ⟨_, long, success⟩ := except_bind_ok _ _ _ success
  have long := not_lt.mp (refuseToken_ok _ _ _ long)
  obtain ⟨anchorLength, anchorRead, success⟩ := except_bind_ok _ _ _ success
  obtain ⟨_, headerOk, success⟩ := except_bind_ok _ _ _ success
  obtain ⟨_, withinOk, _⟩ := except_bind_ok _ _ _ success
  have within := not_lt.mp (refuseToken_ok _ _ _ withinOk)
  obtain ⟨version, flags⟩ := checkSplitHeader_ok _ _ _ _ headerOk
  match token, long with
  | first :: second :: low :: high :: others, long =>
      change first = _ at version
      change second = _ at flags
      have lengthRead : anchorLength = leValue [low, high] := by
        have enough : ¬(low :: high :: others).length < 2 := by simp
        simp only [getUint16, List.drop_succ_cons, List.drop_zero, takeInt, takeBytes, if_neg enough,
          Option.map_some] at anchorRead
        cases anchorRead
        rfl
      have lengthBytes : leBytes 2 anchorLength = [low, high] := by
        rw [lengthRead]
        exact leBytes_leValue [low, high]
      have lengthBound : anchorLength < 256 ^ 2 := by
        rw [lengthRead]
        exact leValue_lt [low, high]
      have header : headerLength = 20 := rfl
      have fingerprintIs : fingerprintLength = 16 := rfl
      simp only [List.length_cons] at long within
      have fingerprintLengthEq : (others.take fingerprintLength).length = fingerprintLength := by
        rw [List.length_take]
        omega
      have anchorLengthEq : ((others.drop fingerprintLength).take anchorLength).length =
          anchorLength := by
        rw [List.length_take, List.length_drop]
        omega
      have layout : first :: second :: low :: high :: others =
          splitTokenBody presented.signingKey.isSome (others.take fingerprintLength)
              ((others.drop fingerprintLength).take anchorLength) ++
            (others.drop fingerprintLength).drop anchorLength := by
        unfold splitTokenBody
        rw [anchorLengthEq, lengthBytes, version, flags]
        simp only [List.cons_append, List.nil_append, List.append_assoc, List.take_append_drop]
      have anchorBound : ((others.drop fingerprintLength).take anchorLength).length ≤ 0xffff := by
        rw [anchorLengthEq]
        omega
      rw [layout, openSplitToken_body crypto _ _ _ presented fingerprintLengthEq anchorBound] at opened
      obtain ⟨_, bindingOk, payloadOk⟩ := except_bind_ok _ _ _ opened
      obtain ⟨fingerprintMatches, anchorMatches⟩ := (checkSplitBinding_ok _ _ presented).mp bindingOk
      exact ⟨_, _, _, fingerprintLengthEq, anchorBound, layout, fingerprintMatches, anchorMatches,
        payloadOk⟩

theorem buildSplitToken_ok (crypto : Primitives) (request : SplitTokenRequest) (nonce : Nonce)
    (token : Bytes) (success : buildSplitToken crypto request nonce = .ok token) :
    request.fingerprint.length = fingerprintLength ∧ request.anchor.length ≤ 0xffff ∧
      token = splitTokenBody request.signingKey.isSome request.fingerprint request.anchor ++
        match request.signingKey with
        | none => request.payload
        | some signingKey =>
            sealBytes crypto request.payload signingKey
              (splitTokenAad (splitTokenBody true request.fingerprint request.anchor) request.auth)
              sealVersion nonce := by
  obtain ⟨_, fingerprintOk, success⟩ := except_bind_ok _ _ _ success
  obtain ⟨_, anchorOk, success⟩ := except_bind_ok _ _ _ success
  refine ⟨not_not.mp (refuseToken_ok _ _ _ fingerprintOk),
    not_lt.mp (refuseToken_ok _ _ _ anchorOk), ?_⟩
  cases signingKey : request.signingKey with
  | none =>
      simp only [signingKey] at success
      cases success
      rfl
  | some key =>
      simp only [signingKey] at success
      cases success
      rfl

theorem buildSplitToken_unkeyed (crypto : Primitives) (fingerprint anchor payload : Bytes)
    (auth : Option AuthContext) (nonce : Nonce) (lengthEq : fingerprint.length = fingerprintLength)
    (bound : anchor.length ≤ 0xffff) :
    buildSplitToken crypto ⟨payload, fingerprint, anchor, none, auth⟩ nonce =
      .ok (splitTokenBody false fingerprint anchor ++ payload) := by
  unfold buildSplitToken
  rw [refuseToken_pass _ _ (not_not.mpr lengthEq), refuseToken_pass _ _ (not_lt.mpr bound)]
  rfl

/-- Two bodies that head the same bytes are the same: the header says where it ends. -/
theorem splitTokenBody_injective (isSealed isSealed' : Bool) (fingerprint anchor rest fingerprint'
    anchor' rest' : Bytes) (lengthEq : fingerprint.length = fingerprintLength)
    (lengthEq' : fingerprint'.length = fingerprintLength) (bound : anchor.length ≤ 0xffff)
    (bound' : anchor'.length ≤ 0xffff)
    (same : splitTokenBody isSealed fingerprint anchor ++ rest =
      splitTokenBody isSealed' fingerprint' anchor' ++ rest') :
    isSealed = isSealed' ∧ fingerprint = fingerprint' ∧ anchor = anchor' ∧ rest = rest' := by
  simp only [splitTokenBody, List.cons_append, List.append_assoc] at same
  obtain ⟨_, same⟩ := List.cons.inj same
  obtain ⟨flags, same⟩ := List.cons.inj same
  have sameSealed : isSealed = isSealed' := by
    cases isSealed <;> cases isSealed' <;> first | rfl | exact absurd flags (by decide)
  obtain ⟨lengths, same⟩ := List.append_inj same (by rw [length_leBytes, length_leBytes])
  have anchorLength : anchor.length = anchor'.length := by
    have values := congrArg leValue lengths
    rwa [leValue_leBytes_of_lt 2 _ (by omega), leValue_leBytes_of_lt 2 _ (by omega)] at values
  obtain ⟨fingerprints, same⟩ := List.append_inj same (by rw [lengthEq, lengthEq'])
  obtain ⟨anchors, rests⟩ := List.append_inj same anchorLength
  exact ⟨sameSealed, fingerprints, anchors, rests⟩

end VgiWorker.Crypto
