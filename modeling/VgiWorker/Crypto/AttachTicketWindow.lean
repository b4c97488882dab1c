import VgiWorker.Crypto.AttachTicketProperties

/-!
# The window of an attach ticket

When an authentic ticket passes the lifetime checks, and the redemption of a
sealed ticket throughout the window it was sealed for.
-/

set_option autoImplicit false

namespace VgiWorker.Crypto

open VgiWorker.Js VgiWorker.Arrow

/-! ## Lifetime checks at a clock reading -/

/-- The greatest clock reading, in seconds. -/
def latestSecond : Int := 8640000000000

private theorem toRat?_skew : clockSkewSeconds.toRat? = some 60 :=
  Number.toRat?_ofInt_exact 60 (by norm_num)

private theorem bounded_of_abs_le (value : ℚ) (bound : |value| ≤ 2 ^ 65) : |value| ≤ pow2 1023 := by
  have power : pow2 65 = 2 ^ 65 := by norm_num [pow2]
  exact (power ▸ bound).trans (pow2_le_pow2 65 1023 (by norm_num))

private theorem abs_round_le (value : Int) (low : -2 ^ 63 ≤ value) (high : value < 2 ^ 63) :
    |roundSignificand (value : ℚ)| ≤ 2 ^ 63 := by
  have power : pow2 63 = 2 ^ 63 := by norm_num [pow2]
  have cast : |(value : ℚ)| ≤ pow2 63 := by
    rw [power, abs_le]
    constructor
    · exact_mod_cast low
    · exact_mod_cast high.le
  exact power ▸ abs_roundSignificand_le _ 63 (by norm_num) cast

private theorem toRat?_ofInt_int64 (value : Int) (low : -2 ^ 63 ≤ value) (high : value < 2 ^ 63) :
    (Number.ofInt value).toRat? = some (roundSignificand value) :=
  Number.toRat?_ofInt value (by rw [abs_le]; omega)

/-- A ticket is valid at its start less the skew. -/
theorem notYetValid_false (now : ClockReading) (issuedAt : Int) (small : |issuedAt| ≤ latestSecond)
    (started : (issuedAt : ℚ) - 60 ≤ now.seconds) :
    (now.reading.add clockSkewSeconds).less (Number.ofInt issuedAt) = false := by
  unfold latestSecond at small
  have nowBounded := now.bounded
  have sumBounded : |now.seconds + 60| ≤ pow2 1023 := by
    apply bounded_of_abs_le
    rw [abs_le] at nowBounded ⊢
    constructor <;> linarith
  rw [Number.less_eq _ _ _ _ (Number.toRat?_add _ _ _ _ now.reading_eq toRat?_skew sumBounded)
    (Number.toRat?_ofInt_exact issuedAt (by omega)), decide_eq_false_iff_not, not_lt]
  exact le_roundSignificand _ issuedAt (by omega) (by linarith)

/-- At clock readings the sum with the skew is compared exactly. -/
theorem expired_eq (now : ClockReading) (expiresAt : Int) (low : -latestSecond ≤ expiresAt)
    (high : expiresAt < 2 ^ 63) :
    ((Number.ofInt expiresAt).add clockSkewSeconds).lessEq now.reading =
      decide ((expiresAt : ℚ) + 60 ≤ now.seconds) := by
  unfold latestSecond at low
  have nowBounded := abs_le.mp now.bounded
  have heldBounded := abs_le.mp (abs_round_le expiresAt (by omega) high)
  have sumBounded : |roundSignificand (expiresAt : ℚ) + 60| ≤ pow2 1023 := by
    apply bounded_of_abs_le
    rw [abs_le]
    constructor <;> linarith
  rw [Number.lessEq_eq _ _ _ _ (Number.toRat?_add _ _ _ _
    (toRat?_ofInt_int64 expiresAt (by omega) high) toRat?_skew sumBounded) now.reading_eq]
  apply decide_eq_decide.mpr
  rcases le_or_gt expiresAt (2 ^ 53 - 60) with exactSum | large
  · have whole : roundSignificand (expiresAt : ℚ) = expiresAt :=
      roundSignificand_intCast _ (by rw [abs_le]; omega)
    have sum : roundSignificand ((expiresAt : ℚ) + 60) = (expiresAt : ℚ) + 60 := by
      have rounded := roundSignificand_intCast (expiresAt + 60) (by rw [abs_le]; omega)
      push_cast at rounded
      exact rounded
    rw [whole, sum]
  · -- Both sides are beyond every clock reading.
    have cast : ((2 ^ 53 - 60 : Int) : ℚ) < expiresAt := by exact_mod_cast large
    have held := le_roundSignificand (expiresAt : ℚ) (2 ^ 53 - 60) (by norm_num) cast.le
    have sum := le_roundSignificand (roundSignificand (expiresAt : ℚ) + 60) (2 ^ 53 - 1)
      (by norm_num) (by push_cast at held ⊢; linarith)
    push_cast at cast sum
    constructor
    · intro expired
      linarith
    · intro expired
      linarith

private theorem emptyLifetime_of_values (issuedAt expiresAt : Number) (issued expires : ℚ)
    (issuedEq : issuedAt.toRat? = some issued) (expiresEq : expiresAt.toRat? = some expires) :
    emptyLifetime issuedAt expiresAt = decide (expires ≠ 0 ∧ expires ≤ issued) := by
  rw [emptyLifetime, Number.strictEq_eq _ _ _ 0 expiresEq rfl,
    Number.lessEq_eq _ _ _ _ expiresEq issuedEq, ← decide_not, ← Bool.decide_and]

/-- Rounding does not move a 64-bit integer past a second a clock can read. -/
private theorem round_le_iff (value bound : Int) (boundSmall : |bound| ≤ latestSecond) :
    roundSignificand (value : ℚ) ≤ bound ↔ value ≤ bound := by
  unfold latestSecond at boundSmall
  rw [abs_le] at boundSmall
  constructor
  · intro rounded
    by_contra above
    have next := le_roundSignificand (value : ℚ) (bound + 1) (by rw [abs_lt]; omega)
      (by exact_mod_cast not_le.mp above)
    push_cast at next
    linarith
  · intro below
    exact roundSignificand_le _ bound (by rw [abs_lt]; omega) (by exact_mod_cast below)

private theorem round_eq_zero_iff (value : Int) : roundSignificand (value : ℚ) = 0 ↔ value = 0 := by
  have atZero := round_le_iff value 0 (by decide)
  have belowZero := round_le_iff value (-1) (by decide)
  constructor
  · intro rounded
    have nonpos := atZero.mp (by rw [rounded]; norm_num)
    by_contra nonzero
    have negative := belowZero.mpr (by omega)
    rw [rounded] at negative
    norm_num at negative
  · rintro rfl
    exact_mod_cast roundSignificand_zero

private theorem strictEq_zero_eq (value : Int) (low : -2 ^ 63 ≤ value) (high : value < 2 ^ 63) :
    (Number.ofInt value).strictEq Number.zero = decide (value = 0) := by
  rw [Number.strictEq_eq _ _ _ 0 (toRat?_ofInt_int64 value low high) rfl]
  exact decide_eq_decide.mpr (round_eq_zero_iff value)

private theorem emptyLifetime_eq (issuedAt expiresAt : Int) (small : |issuedAt| ≤ latestSecond)
    (low : -2 ^ 63 ≤ expiresAt) (high : expiresAt < 2 ^ 63) :
    emptyLifetime (Number.ofInt issuedAt) (Number.ofInt expiresAt) =
      decide (expiresAt ≠ 0 ∧ expiresAt ≤ issuedAt) := by
  have issued := Number.toRat?_ofInt_exact issuedAt (by unfold latestSecond at small; omega)
  rw [emptyLifetime_of_values _ _ _ _ issued (toRat?_ofInt_int64 expiresAt low high)]
  exact decide_eq_decide.mpr
    (and_congr (not_congr (round_eq_zero_iff expiresAt)) (round_le_iff expiresAt issuedAt small))

private theorem bmod_range (value : Int) :
    -2 ^ 63 ≤ value.bmod (2 ^ 64) ∧ value.bmod (2 ^ 64) < 2 ^ 63 := by
  have low := Int.le_bmod (x := value) (m := 2 ^ 64) (by norm_num)
  have high := Int.bmod_lt (x := value) (m := 2 ^ 64) (by norm_num)
  norm_num at low high ⊢
  omega

private theorem bmod_of_small (value : Int) (small : |value| ≤ latestSecond) :
    value.bmod (2 ^ 64) = value := by
  unfold latestSecond at small
  rw [abs_le] at small
  exact Int.bmod_eq_of_le (by norm_num; omega) (by norm_num; omega)

/-- What the checks of a payload and its lifetime come to, once the ticket has started. -/
private theorem checks_eq (claims : AttachTicketClaims) (issuedAt expiresAt : Int)
    (small : |issuedAt| ≤ latestSecond) (idOk : isTicketId (toWellFormed claims.ticketId) = true)
    (cataloged : claims.catalogName ≠ []) (now : ClockReading)
    (started : (issuedAt : ℚ) - 60 ≤ now.seconds) :
    (checkClaims (rereadClaims claims issuedAt expiresAt) [] >>= fun read =>
        checkLifetime read now.reading) =
      let wrapped := expiresAt.bmod (2 ^ 64)
      if wrapped ≠ 0 ∧ wrapped ≤ issuedAt then invalidTicket "attach ticket lifetime is empty"
      else if wrapped ≠ 0 ∧ (wrapped : ℚ) + 60 ≤ now.seconds then
        expiredTicket "attach ticket has expired"
      else .ok (rereadClaims claims issuedAt expiresAt) := by
  obtain ⟨low, high⟩ := bmod_range expiresAt
  have same : issuedAt.bmod (2 ^ 64) = issuedAt := bmod_of_small issuedAt small
  have nonempty : toWellFormed claims.catalogName ≠ [] :=
    fun empty => cataloged (toWellFormed_eq_nil _ empty)
  have lifetime := emptyLifetime_eq issuedAt _ small low high
  have valid := notYetValid_false now issuedAt small started
  have zero : (Number.ofInt (expiresAt.bmod (2 ^ 64))).strictEq Number.zero =
      decide (expiresAt.bmod (2 ^ 64) = 0) := strictEq_zero_eq _ low high
  simp only [checkClaims, rereadClaims, same, idOk, nonempty, lifetime, ne_eq, not_true_eq_false,
    if_false, Bool.not_true, Bool.false_eq_true, decide_eq_true_eq]
  generalize expiresAt.bmod (2 ^ 64) = wrapped at *
  split
  · rfl
  · rename_i living
    rw [except_ok_bind, checkLifetime, valid, zero]
    by_cases none : wrapped = 0
    · simp [none]
    · have late : -latestSecond ≤ wrapped := by
        have after := not_and.mp living none
        have bounds := abs_le.mp small
        omega
      simp [none, expired_eq now _ late high]

/-! ## Sealing and opening -/

section

variable (crypto : Primitives) (dateText : Number → Text)
  (deserializeBatch : Bytes → Except Text Batch) (toLowerCase : Text → Text)

private theorem mintAttachTicket_ok (signingKey : Bytes) (options : MintAttachTicketOptions)
    (draw : TicketDraw) (token : Text) (claims : AttachTicketClaims)
    (success : mintAttachTicket crypto signingKey options draw = .ok (token, claims)) :
    ∃ payload, options.principal ≠ [] ∧ options.catalogName ≠ [] ∧
      emptyLifetime options.issuedAt.trunc options.expiresAt.trunc = false ∧
      encodePayload (options.claims draw) = .ok payload ∧
      token = attachTicketPrefix ++ base64Url (sealBytes crypto payload signingKey
        (attachTicketAad options.principal) ticketEnvelopeVersion draw.nonce) ∧
      token.length ≤ maxTicketChars := by
  unfold mintAttachTicket at success
  dsimp only at success
  split at success
  · cases success
  · rename_i named
    split at success
    · cases success
    · rename_i cataloged
      split at success
      · cases success
      · split at success
        · cases success
        · rename_i living
          obtain ⟨payload, encoded, success⟩ := except_bind_ok _ _ _ success
          split at success
          · cases success
          · rename_i short
            cases success
            exact ⟨payload, named, cataloged, by simpa [MintAttachTicketOptions.claims] using living, encoded, rfl,
              not_lt.mp short⟩

/-- A sealed token opens to its payload, under the same key and principal. -/
private theorem openAttachTicket_sealed
    (decrypts : ∀ key nonce aad plaintext,
      crypto.decrypt key nonce aad (crypto.encrypt key nonce aad plaintext) = some plaintext)
    (tagged : ∀ key nonce aad plaintext,
      tagLength ≤ (crypto.encrypt key nonce aad plaintext).length)
    (signingKey payload : Bytes) (principal : Text) (nonce : Nonce) (current : Number)
    (named : principal ≠ [])
    (short : (attachTicketPrefix ++ base64Url (sealBytes crypto payload signingKey
      (attachTicketAad principal) ticketEnvelopeVersion nonce)).length ≤ maxTicketChars) :
    openAttachTicket crypto signingKey (attachTicketPrefix ++ base64Url (sealBytes crypto payload
      signingKey (attachTicketAad principal) ticketEnvelopeVersion nonce)) (some principal) current =
      (decodePayload payload >>= fun claims => checkLifetime claims current) := by
  have opened := openBytes_sealBytes crypto payload signingKey (attachTicketAad principal)
    ticketEnvelopeVersion nonce attachTicketOption (tagged _ _ _ _) (decrypts _ _ _ _)
  have envelope := b64urlStrict_base64Url (sealBytes crypto payload signingKey
    (attachTicketAad principal) ticketEnvelopeVersion nonce) (List.cons_ne_nil _ _)
  cases principal with
  | nil => exact absurd rfl named
  | cons unit rest =>
      rw [openAttachTicket]
      simp only [List.isPrefixOf_iff_prefix.mpr (List.prefix_append _ _), Bool.not_true,
        Bool.false_eq_true, if_false, not_lt.mpr short, List.drop_left]
      rw [envelope, except_ok_bind, opened]

private theorem requestedOptions_ok (options : Option Bytes) (record : Bytes)
    (decoded : List (Text × Rich)) (violations : List (Text × Text))
    (success : requestedOptions dateText deserializeBatch options =
      .ok (record, decoded, violations)) :
    decodeOptionsBatch dateText deserializeBatch record = .ok decoded := by
  unfold requestedOptions at success
  split at success
  · cases success
    rfl
  · cases success
    rfl
  · split at success
    · cases success
    · split at success
      · cases success
        rfl
      · split at success
        · obtain ⟨entries, read, success⟩ := except_bind_ok _ _ _ success
          cases success
          exact read
        · cases success
          rfl

/-- What `sealAttach` mints for a request whose options record is `record`. -/
def sealedOptions (config : AttachTicketsConfig) (request : SealAttachRequest) (principal : Text)
    (record : Bytes) : MintAttachTicketOptions :=
  { principal
    catalogName := request.catalogName
    optionsIpc := record
    dataVersionSpec := some request.dataVersionSpec
    implementationVersion := some request.implementationVersion
    issuedAt := config.now.reading.trunc
    expiresAt := expiryOf config.now.reading.trunc request.ttlSeconds config.maxTtlSeconds }

private theorem sealAttach_ok (config : AttachTicketsConfig) (request : SealAttachRequest)
    (auth : Option AuthContext) (draw : TicketDraw) (ticket : AttachTicket)
    (accepted : sealAttach crypto dateText deserializeBatch toLowerCase config request auth draw =
      .ok ticket) :
    ∃ principal record options claims, callerPrincipal auth = some principal ∧
      requestedOptions dateText deserializeBatch request.options = .ok (record, options, []) ∧
      mintAttachTicket crypto config.signingKey (sealedOptions config request principal record) draw =
        .ok (ticket.ticket, claims) := by
  unfold sealAttach at accepted
  split at accepted
  · cases accepted
  · rename_i principal caller
    obtain ⟨⟨record, options, recordViolations⟩, read, accepted⟩ := except_bind_ok _ _ _ accepted
    obtain ⟨specs, _, accepted⟩ := except_bind_ok _ _ _ accepted
    dsimp only at accepted
    split at accepted
    · cases accepted
    · rename_i clean
      have noRecord : recordViolations = [] := by
        simp only [ne_eq, List.append_eq_nil_iff, not_not] at clean
        exact clean.1.1.2
      split at accepted
      · cases accepted
      · rename_i token claims minted
        cases accepted
        exact ⟨principal, record, options, claims, caller, noRecord ▸ read, minted⟩

/-! ## Redemption throughout the window -/

/-- The second a ticket sealed under `config` is issued at. -/
def issuedSecond (config : AttachTicketsConfig) : Int :=
  Number.truncate config.now.seconds

/-- The second it expires at, zero for none. -/
def expirySecond (config : AttachTicketsConfig) (request : SealAttachRequest) : Int :=
  ((expiryOf config.now.reading.trunc request.ttlSeconds config.maxTtlSeconds).trunc.toInt?).getD 0

/-- The window of a ticket, with the clock skew on both sides. -/
def InWindow (issuedAt expiresAt : Int) (now : ClockReading) : Prop :=
  (issuedAt : ℚ) - 60 ≤ now.seconds ∧ (expiresAt = 0 ∨ now.seconds < (expiresAt : ℚ) + 60)

/-- The 64-bit expiry is none, or a later second that is the expiry itself or beyond every
clock. -/
def ExpiryHolds (issuedAt expiresAt : Int) : Prop :=
  let wrapped := expiresAt.bmod (2 ^ 64)
  wrapped = 0 ∨ (issuedAt < wrapped ∧ (wrapped = expiresAt ∨ latestSecond < wrapped + 60))

/-- The attach a request describes, its options record being `record`. -/
def requestedAttach (request : SealAttachRequest) (record : Bytes) (options : List (Text × Rich)) :
    RestoredAttach :=
  { name := request.catalogName
    optionsIpc := orNull record
    options := options
    dataVersionSpec := orNull request.dataVersionSpec
    implementationVersion := orNull request.implementationVersion }

/-- The request with its texts as a payload gives them back. -/
def SealAttachRequest.wellFormed (request : SealAttachRequest) : SealAttachRequest :=
  { request with
    catalogName := toWellFormed request.catalogName
    dataVersionSpec := toWellFormed request.dataVersionSpec
    implementationVersion := toWellFormed request.implementationVersion }

private theorem abs_issuedSecond_le (config : AttachTicketsConfig) :
    |issuedSecond config| ≤ latestSecond := by
  have bound := (Number.abs_truncate_le config.now.seconds).trans config.now.bounded
  rw [← Int.cast_abs] at bound
  unfold latestSecond issuedSecond
  exact_mod_cast bound

private theorem toInt?_issued (config : AttachTicketsConfig) :
    config.now.reading.trunc.trunc.toInt? = some (issuedSecond config) := by
  have bounded := config.now.bounded
  have once := Number.toRat?_trunc _ _ config.now.reading_eq (bounded.trans (by norm_num))
  have small := (Number.abs_truncate_le config.now.seconds).trans bounded
  have twice := Number.toRat?_trunc _ _ once (small.trans (by norm_num))
  have whole : Number.truncate ((Number.truncate config.now.seconds : Int) : ℚ) =
      Number.truncate config.now.seconds := by
    rw [Number.truncate]
    split
    · rw [← Int.cast_neg, Rat.floor_intCast, neg_neg]
    · rw [Rat.floor_intCast]
  rw [whole] at twice
  exact (Number.toInt?_eq_some _ _).mpr twice

/-- A sealed ticket presented in its window redeems to its request, its texts well formed,
when the 64-bit expiry has not passed, and fails otherwise. -/
private theorem redeem_sealed
    (decrypts : ∀ key nonce aad plaintext,
      crypto.decrypt key nonce aad (crypto.encrypt key nonce aad plaintext) = some plaintext)
    (tagged : ∀ key nonce aad plaintext,
      tagLength ≤ (crypto.encrypt key nonce aad plaintext).length)
    (config : AttachTicketsConfig) (request : SealAttachRequest) (auth : Option AuthContext)
    (draw : TicketDraw) (ticket : AttachTicket)
    (accepted : sealAttach crypto dateText deserializeBatch toLowerCase config request auth draw =
      .ok ticket)
    (key : Text) (reserved : toLowerCase key = attachTicketOption) :
    ∃ record options, requestedOptions dateText deserializeBatch request.options =
        .ok (record, options, []) ∧
      (expirySecond config request ≠ 0 → issuedSecond config < expirySecond config request) ∧
      ∀ (presenter : Option AuthContext) (now : ClockReading),
        callerPrincipal presenter = callerPrincipal auth →
        (issuedSecond config : ℚ) - 60 ≤ now.seconds →
        redeemAttachTicket crypto dateText deserializeBatch toLowerCase
            [(key, .string ticket.ticket)] (some config.signingKey) presenter now.reading =
          let wrapped := (expirySecond config request).bmod (2 ^ 64)
          if wrapped ≠ 0 ∧ wrapped ≤ issuedSecond config then
            invalidTicket "attach ticket lifetime is empty"
          else if wrapped ≠ 0 ∧ (wrapped : ℚ) + 60 ≤ now.seconds then
            expiredTicket "attach ticket has expired"
          else .ok (some (requestedAttach request.wellFormed record options)) := by
  obtain ⟨principal, record, options, claims, caller, read, minted⟩ :=
    sealAttach_ok _ _ _ _ _ _ _ _ _ accepted
  obtain ⟨payload, named, cataloged, living, encoded, token, short⟩ :=
    mintAttachTicket_ok _ _ _ _ _ _ minted
  obtain ⟨issuedAt, expiresAt, issuedInt, expiresInt, decoded⟩ :=
    decodePayload_encodePayload _ _ encoded
  have issuedIs : issuedAt = issuedSecond config :=
    Option.some.inj (issuedInt.symm.trans (toInt?_issued config))
  have expiresIs : expiresAt = expirySecond config request := by
    have found : (expiryOf config.now.reading.trunc request.ttlSeconds
        config.maxTtlSeconds).trunc.toInt? = some expiresAt := expiresInt
    rw [expirySecond, found, Option.getD_some]
  subst issuedIs expiresIs
  have small := abs_issuedSecond_le config
  have optionsRead := requestedOptions_ok _ _ _ _ _ _ read
  refine ⟨record, options, read, ?_, ?_⟩
  · intro nonzero
    have living : decide _ = false := (emptyLifetime_of_values _ _ _ _
      ((Number.toInt?_eq_some _ _).mp issuedInt)
      ((Number.toInt?_eq_some _ _).mp expiresInt)).symm.trans living
    rw [decide_eq_false_iff_not] at living
    by_contra early
    exact living ⟨by exact_mod_cast nonzero, by exact_mod_cast not_lt.mp early⟩
  · intro presenter now same started
    rw [caller] at same
    have opened := openAttachTicket_sealed crypto decrypts tagged config.signingKey payload
      (sealedOptions config request principal record).principal draw.nonce now.reading named
      (token ▸ short)
    have idOk : isTicketId (toWellFormed draw.id) = true := by
      have wellFormed : toWellFormed draw.id = draw.id := isWellFormed_draw draw
      rw [wellFormed]
      exact isTicketId_draw draw
    rw [← token, decoded, checks_eq _ _ _ small idOk cataloged now started] at opened
    have opened : openAttachTicket crypto config.signingKey ticket.ticket (some principal)
      now.reading = _ := opened
    simp only [redeemAttachTicket, List.find?_cons, reserved, decide_true, List.filter_cons,
      ne_eq, not_true_eq_false, decide_false, Bool.false_eq_true, if_false, List.filter_nil, same,
      opened]
    split
    · rfl
    · split
      · rfl
      · have restored : decodeOptionsBatch dateText deserializeBatch (rereadClaims
            ((sealedOptions config request principal record).claims draw) (issuedSecond config)
            (expirySecond config request)).optionsIpc = .ok options := optionsRead
        rw [except_ok_bind, restored]
        rfl

/-- The requests whose ticket can be redeemed throughout its window. -/
def SealedTicketHolds (config : AttachTicketsConfig) (request : SealAttachRequest) : Prop :=
  (IsWellFormed request.catalogName ∧ IsWellFormed request.dataVersionSpec ∧
      IsWellFormed request.implementationVersion) ∧
    ExpiryHolds (issuedSecond config) (expirySecond config request)

/-- The last instant a clock can read. -/
private def latestReading : ClockReading where
  reading := Number.ofInt latestSecond
  seconds := (latestSecond : ℚ)
  reading_eq := Number.toRat?_ofInt_exact latestSecond (by decide)
  bounded := by norm_num [latestSecond]

/-- The second a ticket is issued at, as a reading. -/
private def issuedReading (config : AttachTicketsConfig) : ClockReading where
  reading := Number.ofInt (issuedSecond config)
  seconds := (issuedSecond config : ℚ)
  reading_eq := Number.toRat?_ofInt_exact _
    ((abs_issuedSecond_le config).trans (by norm_num [latestSecond]))
  bounded := by
    rw [← Int.cast_abs]
    exact_mod_cast abs_issuedSecond_le config

private theorem orNull_injective {α : Type} (left right : List α) (same : orNull left = orNull right) :
    left = right := by
  cases left <;> cases right <;> simp_all [orNull]

private theorem wellFormed_of_requestedAttach (request : SealAttachRequest) (record : Bytes)
    (options : List (Text × Rich))
    (same : (.ok (some (requestedAttach request.wellFormed record options)) :
      Except AttachTicketFault (Option RestoredAttach)) =
        .ok (some (requestedAttach request record options))) :
    IsWellFormed request.catalogName ∧ IsWellFormed request.dataVersionSpec ∧
      IsWellFormed request.implementationVersion := by
  have restored := Option.some.inj (Except.ok.inj same)
  refine ⟨congrArg RestoredAttach.name restored, ?_, ?_⟩
  · exact orNull_injective _ _ (congrArg RestoredAttach.dataVersionSpec restored)
  · exact orNull_injective _ _ (congrArg RestoredAttach.implementationVersion restored)

private theorem expiry_beyond (issuedAt expiresAt : Int) (small : |issuedAt| ≤ latestSecond)
    (ordered : expiresAt ≠ 0 → issuedAt < expiresAt)
    (changed : expiresAt.bmod (2 ^ 64) ≠ expiresAt) : 2 ^ 63 ≤ expiresAt := by
  by_contra low
  have nonzero : expiresAt ≠ 0 := by
    rintro rfl
    exact changed rfl
  have after := ordered nonzero
  unfold latestSecond at small
  have bounds := (abs_le.mp small).1
  exact changed (Int.bmod_eq_of_le (by norm_num; omega) (by norm_num; omega))

/-- Every ticket `sealAttach` returns redeems to its request throughout its window, exactly
when the request's texts are well formed and its expiry holds in 64 bits. -/
theorem sealed_ticket_redeems
    (decrypts : ∀ key nonce aad plaintext,
      crypto.decrypt key nonce aad (crypto.encrypt key nonce aad plaintext) = some plaintext)
    (tagged : ∀ key nonce aad plaintext,
      tagLength ≤ (crypto.encrypt key nonce aad plaintext).length)
    (config : AttachTicketsConfig) (request : SealAttachRequest) (auth : Option AuthContext)
    (draw : TicketDraw) (ticket : AttachTicket)
    (accepted : sealAttach crypto dateText deserializeBatch toLowerCase config request auth draw =
      .ok ticket)
    (key : Text) (reserved : toLowerCase key = attachTicketOption) :
    ∃ record options, requestedOptions dateText deserializeBatch request.options =
        .ok (record, options, []) ∧
      ((∀ (presenter : Option AuthContext) (now : ClockReading),
          callerPrincipal presenter = callerPrincipal auth →
          InWindow (issuedSecond config) (expirySecond config request) now →
          redeemAttachTicket crypto dateText deserializeBatch toLowerCase
              [(key, .string ticket.ticket)] (some config.signingKey) presenter now.reading =
            .ok (some (requestedAttach request record options))) ↔
        SealedTicketHolds config request) := by
  obtain ⟨record, options, read, ordered, redeemed⟩ := redeem_sealed crypto dateText
    deserializeBatch toLowerCase decrypts tagged config request auth draw ticket accepted key reserved
  refine ⟨record, options, read, ?_, ?_⟩
  · intro redeems
    have windowAt : ∀ now : ClockReading,
        InWindow (issuedSecond config) (expirySecond config request) now → _ := fun now inside =>
      (redeemed auth now rfl inside.1).symm.trans (redeems auth now rfl inside)
    have issuedInside : InWindow (issuedSecond config) (expirySecond config request)
        (issuedReading config) := by
      refine ⟨by simp [issuedReading], ?_⟩
      by_cases none : expirySecond config request = 0
      · exact Or.inl none
      · have after : (issuedSecond config : ℚ) < expirySecond config request := by
          exact_mod_cast ordered none
        exact Or.inr (by simp only [issuedReading]; linarith)
    have atIssue := windowAt _ issuedInside
    dsimp only at atIssue windowAt
    generalize wrappedEq : (expirySecond config request).bmod (2 ^ 64) = wrapped at atIssue windowAt
    split at atIssue
    · cases atIssue
    · rename_i living
      split at atIssue
      · cases atIssue
      · refine ⟨wellFormed_of_requestedAttach request record options atIssue, ?_⟩
        unfold ExpiryHolds
        rw [wrappedEq]
        refine or_iff_not_imp_left.mpr fun nonzero => ?_
        have after : issuedSecond config < wrapped := not_le.mp (not_and.mp living nonzero)
        refine ⟨after, or_iff_not_imp_left.mpr fun changed => ?_⟩
        -- An expiry that changed lies beyond every clock, so the latest reading is in the window.
        have beyond : 2 ^ 63 ≤ expirySecond config request :=
          expiry_beyond _ _ (abs_issuedSecond_le config) ordered (wrappedEq.trans_ne changed)
        have latestInside : InWindow (issuedSecond config) (expirySecond config request)
            latestReading := by
          have small := (abs_le.mp (abs_issuedSecond_le config)).2
          have smallCast : (issuedSecond config : ℚ) ≤ latestSecond := by exact_mod_cast small
          have beyondCast : ((2 ^ 63 : Int) : ℚ) ≤ expirySecond config request := by
            exact_mod_cast beyond
          norm_num at beyondCast
          refine ⟨?_, Or.inr ?_⟩
          · simp only [latestReading]
            linarith
          · simp only [latestReading, latestSecond]
            norm_num
            linarith
        have atLatest := windowAt _ latestInside
        rw [if_neg living] at atLatest
        split at atLatest
        · cases atLatest
        · rename_i unexpired
          have fresh := not_le.mp (not_and.mp unexpired nonzero)
          simp only [latestReading] at fresh
          exact_mod_cast fresh
  · rintro ⟨⟨catalogName, dataVersion, implementation⟩, holds⟩ presenter now same inside
    have unchanged : request.wellFormed = request := by
      have catalogName : toWellFormed request.catalogName = request.catalogName := catalogName
      have dataVersion : toWellFormed request.dataVersionSpec = request.dataVersionSpec := dataVersion
      have implementation : toWellFormed request.implementationVersion =
        request.implementationVersion := implementation
      rw [SealAttachRequest.wellFormed, catalogName, dataVersion, implementation]
    rw [redeemed presenter now same inside.1, unchanged]
    unfold ExpiryHolds at holds
    dsimp only at holds ⊢
    generalize (expirySecond config request).bmod (2 ^ 64) = wrapped at holds ⊢
    rcases holds with none | ⟨after, lasting⟩
    · rw [if_neg fun refused => refused.1 none, if_neg fun refused => refused.1 none]
    · rw [if_neg fun refused => absurd refused.2 (not_le.mpr after), if_neg ?_]
      rintro ⟨nonzero, expired⟩
      rcases lasting with kept | beyond
      · rcases inside.2 with none | fresh
        · exact nonzero (kept.trans none)
        · rw [kept] at expired
          linarith
      · have nowLe := (abs_le.mp now.bounded).2
        have cast : ((latestSecond : Int) : ℚ) < wrapped + 60 := by exact_mod_cast beyond
        norm_num [latestSecond] at cast
        linarith

end

/-! ## A sample worker -/

/-- A cipher that appends an empty tag and takes it off again. -/
def tagPrimitives : Primitives where
  sha256 := fun _ => List.replicate 32 0
  encrypt := fun _ _ _ plaintext => plaintext ++ List.replicate tagLength 0
  decrypt := fun _ _ _ ciphertext => some (ciphertext.take (ciphertext.length - tagLength))

private theorem tagPrimitives_decrypts (key nonce aad plaintext : Bytes) :
    tagPrimitives.decrypt key nonce aad (tagPrimitives.encrypt key nonce aad plaintext) =
      some plaintext := by
  simp [tagPrimitives]

private theorem tagPrimitives_tagged (key nonce aad plaintext : Bytes) :
    tagLength ≤ (tagPrimitives.encrypt key nonce aad plaintext).length := by
  simp [tagPrimitives]

def sampleNow : ClockReading where
  reading := Number.ofInt 1790000000
  seconds := ((1790000000 : Int) : ℚ)
  reading_eq := Number.toRat?_ofInt_exact 1790000000 (by decide)
  bounded := by norm_num

def sampleConfig : AttachTicketsConfig where
  signingKey := List.replicate 32 1
  catalogInterface := some [⟨text "sales", .ok []⟩]
  maxTtlSeconds := none
  now := sampleNow

def sampleAttach (ttl : Int) : SealAttachRequest where
  catalogName := text "sales"
  options := none
  dataVersionSpec := []
  implementationVersion := text "1"
  ttlSeconds := Number.ofInt ttl

def sampleAuth : Option AuthContext :=
  some ⟨true, some (text "jwt"), some (text "alice")⟩

def sampleDraw : TicketDraw where
  nonce := ⟨List.replicate nonceLength 7, List.length_replicate⟩
  idBytes := List.replicate 16 171
  idLength := rfl

def sampleLower (name : Text) : Text :=
  name.map fun unit => if 65 ≤ unit.toNat ∧ unit.toNat ≤ 90 then unit + 32 else unit

def sealSample (ttl : Int) : Except AttachTicketFault AttachTicket :=
  sealAttach tagPrimitives (fun _ => []) (fun _ => .error []) sampleLower sampleConfig
    (sampleAttach ttl) sampleAuth sampleDraw

private theorem sealSample_accepts :
    (sealSample 3600).toOption.isSome = true ∧ (sealSample (2 ^ 63 - 1)).toOption.isSome = true := by
  decide +kernel

private theorem ok_of_isSome (ttl : Int) (some : (sealSample ttl).toOption.isSome = true) :
    ∃ ticket, sealSample ttl = .ok ticket := by
  cases sealed : sealSample ttl with
  | error fault => rw [sealed] at some; cases some
  | ok ticket => exact ⟨ticket, rfl⟩

theorem sealed_ticket_redeems_sample : ∃ ticket : AttachTicket,
    sealSample 3600 = .ok ticket ∧
      redeemAttachTicket tagPrimitives (fun _ => []) (fun _ => .error []) sampleLower
          [(text "VGI_Attach_Ticket", .string ticket.ticket)] (some sampleConfig.signingKey)
          sampleAuth sampleNow.reading =
        .ok (some (requestedAttach (sampleAttach 3600) [] [])) := by
  obtain ⟨ticket, sealed⟩ := ok_of_isSome 3600 sealSample_accepts.1
  refine ⟨ticket, sealed, ?_⟩
  obtain ⟨record, options, read, iff⟩ := sealed_ticket_redeems tagPrimitives (fun _ => [])
    (fun _ => .error []) sampleLower tagPrimitives_decrypts tagPrimitives_tagged sampleConfig
    (sampleAttach 3600) sampleAuth sampleDraw ticket sealed (text "VGI_Attach_Ticket")
    (by decide +kernel)
  have holds : SealedTicketHolds sampleConfig (sampleAttach 3600) := by
    refine ⟨⟨by decide +kernel, by decide +kernel, by decide +kernel⟩, Or.inr ?_⟩
    decide +kernel
  have inside : InWindow (issuedSecond sampleConfig)
      (expirySecond sampleConfig (sampleAttach 3600)) sampleNow := by
    unfold InWindow
    decide +kernel
  cases read
  exact iff.mpr holds sampleAuth sampleNow rfl inside

/-- With no ceiling, the longest lifetime the wire carries is sealed and never opens. -/
theorem longest_lifetime_never_opens : ∃ ticket : AttachTicket,
    sealSample (2 ^ 63 - 1) = .ok ticket ∧
      InWindow (issuedSecond sampleConfig)
        (expirySecond sampleConfig (sampleAttach (2 ^ 63 - 1))) sampleNow ∧
      redeemAttachTicket tagPrimitives (fun _ => []) (fun _ => .error []) sampleLower
          [(text "vgi_attach_ticket", .string ticket.ticket)] (some sampleConfig.signingKey)
          sampleAuth sampleNow.reading =
        invalidTicket "attach ticket lifetime is empty" := by
  obtain ⟨ticket, sealed⟩ := ok_of_isSome (2 ^ 63 - 1) sealSample_accepts.2
  obtain ⟨_, _, _, _, redeemed⟩ := redeem_sealed tagPrimitives (fun _ => []) (fun _ => .error [])
    sampleLower tagPrimitives_decrypts tagPrimitives_tagged sampleConfig
    (sampleAttach (2 ^ 63 - 1)) sampleAuth sampleDraw ticket sealed (text "vgi_attach_ticket")
    (by decide +kernel)
  have started : (issuedSecond sampleConfig : ℚ) - 60 ≤ sampleNow.seconds := by decide +kernel
  refine ⟨ticket, sealed, ⟨started, by decide +kernel⟩, ?_⟩
  rw [redeemed sampleAuth sampleNow rfl started]
  exact if_pos (by decide +kernel)

end VgiWorker.Crypto
