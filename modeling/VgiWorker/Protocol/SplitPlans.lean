import VgiWorker.Crypto.AttachTicketProperties
import VgiWorker.Protocol.FunctionHandlers

/-!
# Planned splits are redeemable

A plan stamps its tokens with the version that its catalog answers for the
attach value as it is presented; the init that redeems them asks for the opened
value.
-/

set_option autoImplicit false

namespace VgiWorker.Protocol

open VgiWorker.Js VgiWorker.Arrow VgiWorker.Crypto

/-! ## A composite catalog -/

/-- The backend that byte 0 of an attach value names. -/
def Composite.route (backends : List CatalogInterface) (attach : Bytes) :
    Except OpaqueDataRejectedError CatalogInterface :=
  match attach with
  | [] => .error ⟨text "attach_opaque_data"⟩
  | index :: _ =>
      match backends[index.toNat]? with
      | some backend => .ok backend
      | none => .error ⟨text "attach_opaque_data"⟩

def Composite.catalogInterface (backends : List CatalogInterface) : CatalogInterface where
  catalogNameForAttach := fun attach =>
    match Composite.route backends attach with
    | .ok backend => .ok (backend.catalogNameForAttach attach).toOption.join
    | .error _ => .ok none
  version := some fun attach txn =>
    match Composite.route backends attach with
    | .ok backend =>
        match backend.version with
        | some version => version attach txn
        | none => .error (text "version is not a function")
    | .error fault => .error fault.message

/-! ## What catalogs report -/

/-- The version a catalog reports for an attach and a transaction of its own. -/
def reportedVersion (catalog : Option CatalogInterface) (attach : Bytes) (txn : Option Bytes) :
    Option Number :=
  match catalog.bind CatalogInterface.version with
  | some version => (version attach txn).toOption
  | none => none

/-- `===`, with a NaN equal to itself. -/
def SameNumber (left right : Number) : Prop :=
  left = right ∨ left.strictEq right = true

def SameVersion : Option Number → Option Number → Prop
  | none, none => True
  | some left, some right => SameNumber left right
  | _, _ => False

def DifferentVersions : Option Number → Option Number → Prop
  | some left, some right => ¬SameNumber left right
  | _, _ => False

/-- Versions that an anchor tells apart: integers that differ modulo 2^64. -/
def AnchoredApart : Option Number → Option Number → Prop
  | some left, some right => ∃ leftValue rightValue : Int, left.toInt? = some leftValue ∧
      right.toInt? = some rightValue ∧ leftValue % 2 ^ 64 ≠ rightValue % 2 ^ 64
  | _, _ => False

instance (left right : Number) : Decidable (SameNumber left right) :=
  inferInstanceAs (Decidable (_ ∨ _))

/-- What the version of a form of the attach answers, as an anchor. -/
def answeredAnchor (catalog : Option CatalogInterface) (txn : Option Bytes) (form : Bytes) :
    Option Bytes :=
  (catalog.bind CatalogInterface.version).bind fun version => anchorAt version txn form

/-! ## One attach, one caller -/

/-- An attach and a transaction of a catalog, as they are minted for a caller. -/
structure MintedBind where
  caller : Option AuthContext
  signingKey : Option Bytes
  attach : Bytes
  transaction : Option Bytes
  uuid : AttachUuid
  attachNonce : Nonce
  transactionNonce : Nonce

namespace MintedBind

variable (crypto : Primitives) (minted : MintedBind)

def attachEnvelope : Bytes :=
  sealAttach crypto minted.attach minted.caller minted.signingKey minted.uuid minted.attachNonce

def transactionEnvelope : Option Bytes :=
  minted.transaction.map fun plaintext =>
    sealTransaction crypto plaintext (minted.attachEnvelope crypto) minted.caller minted.signingKey
      minted.transactionNonce

/-- A bind call that carries the values as they were minted. -/
structure Carries (bindCall : BindRequest) : Prop where
  attach : bindCall.attachOpaqueData = some (minted.attachEnvelope crypto)
  transaction : bindCall.transactionOpaqueData = minted.transactionEnvelope crypto

/-- The anchor that a plan stamps: the answer for the presented form, else for the catalog's own
bytes, else version 0. -/
def plannedAnchor (catalog : Option CatalogInterface) : Bytes :=
  ((answeredAnchor catalog (minted.transactionEnvelope crypto) (minted.attachEnvelope crypto)).or
    (answeredAnchor catalog (minted.transactionEnvelope crypto) minted.attach)).getD (splitAnchor 0)

/-- The anchor that an init compares with: the answer for the catalog's own bytes, else for what
opening them once more leaves. -/
def expectedAnchor (catalog : Option CatalogInterface) : Option Bytes :=
  (answeredAnchor catalog (minted.transactionEnvelope crypto) minted.attach).or
    ((openAttach crypto minted.attach minted.caller minted.signingKey).toOption.bind
      (answeredAnchor catalog (minted.transactionEnvelope crypto)))

/-- Every answer that a plan or an init may take is the catalog's answer for its own attach and
transaction. -/
structure FormsAlike (atPlan atInit : Option CatalogInterface) : Prop where
  presented : ∀ anchor ∈ answeredAnchor atPlan minted.transaction minted.attach,
    ∀ held ∈ answeredAnchor atPlan (minted.transactionEnvelope crypto)
      (minted.attachEnvelope crypto), held = anchor
  planned : answeredAnchor atPlan (minted.transactionEnvelope crypto) minted.attach =
    answeredAnchor atPlan minted.transaction minted.attach
  redeemed : answeredAnchor atInit (minted.transactionEnvelope crypto) minted.attach =
    answeredAnchor atInit minted.transaction minted.attach
  openedAgain : answeredAnchor atInit minted.transaction minted.attach = none →
    ∀ opened ∈ (openAttach crypto minted.attach minted.caller minted.signingKey).toOption,
      answeredAnchor atInit (minted.transactionEnvelope crypto) opened = none
  apart : DifferentVersions (reportedVersion atPlan minted.attach minted.transaction)
      (reportedVersion atInit minted.attach minted.transaction) →
    AnchoredApart (reportedVersion atPlan minted.attach minted.transaction)
      (reportedVersion atInit minted.attach minted.transaction)

end MintedBind

/-- An init request that presents tokens. -/
def WireInit.presenting (wire : WireInit) (tokens : List Bytes) : WireInit :=
  { wire with request := { wire.request with splitTokens := some tokens } }

section

variable (crypto : Primitives) (fingerprintInputs : Bytes → Except Text ScanBind)
  (registry : Text → OverloadContext → Except Text VgiFunction) (minted : MintedBind)
  (atPlan atInit : Option CatalogInterface)

/-- What an init with the catalog's present state admits of presented splits. -/
def admitPresented (wire : WireInit) (presented : List (ScanSplit × Bytes)) :
    Except HandlerFault InitRequest :=
  admitInit crypto fingerprintInputs ⟨registry, minted.signingKey, atInit⟩
    (wire.presenting (presented.map Prod.snd)) (CallScope.stream minted.caller)

/-- Splits of a plan, presented with their tokens, come back as their payloads in order while the
reported version stays, and are refused as stale once it changes. -/
structure SplitsRedeemable (wire : WireInit) (planned : List (ScanSplit × Bytes)) : Prop where
  unchanged : SameVersion (reportedVersion atPlan minted.attach minted.transaction)
      (reportedVersion atInit minted.attach minted.transaction) →
    ∀ presented, (∀ split ∈ presented, split ∈ planned) →
      ∃ request, admitPresented crypto fingerprintInputs registry minted atInit wire presented =
          .ok request ∧
        request.splitPayloads = some (presented.map fun split => split.1.payload)
  changed : DifferentVersions (reportedVersion atPlan minted.attach minted.transaction)
      (reportedVersion atInit minted.attach minted.transaction) →
    ∀ presented, (∀ split ∈ presented, split ∈ planned) → presented ≠ [] →
      ∃ message, admitPresented crypto fingerprintInputs registry minted atInit wire presented =
        .error (.splitToken (.splitTokenError .snapshotExpired message))

/-! ## What the answers make of the anchors -/

private theorem toInt?_of_same (left right : Number) (same : SameNumber left right) :
    left.toInt? = right.toInt? := by
  cases same with
  | inl equal => rw [equal]
  | inr strict =>
      unfold Number.toInt?
      unfold Number.strictEq at strict
      split at strict
      · rfl
      · split at strict
        · rename_i leftValue rightValue leftIs rightIs
          rw [leftIs, rightIs, of_decide_eq_true strict]
        · cases strict

private theorem answeredAnchor_reported (catalog : Option CatalogInterface) (attach : Bytes)
    (txn : Option Bytes) :
    answeredAnchor catalog txn attach = (reportedVersion catalog attach txn).bind anchorOfNumber := by
  unfold answeredAnchor reportedVersion anchorAt
  cases catalog.bind CatalogInterface.version <;> rfl

private theorem answeredAnchor_same (attach : Bytes) (txn : Option Bytes)
    (same : SameVersion (reportedVersion atPlan attach txn) (reportedVersion atInit attach txn)) :
    answeredAnchor atPlan txn attach = answeredAnchor atInit txn attach := by
  rw [answeredAnchor_reported, answeredAnchor_reported]
  cases planned : reportedVersion atPlan attach txn with
  | none =>
      cases current : reportedVersion atInit attach txn with
      | none => rfl
      | some right => simp [planned, current, SameVersion] at same
  | some left =>
      cases current : reportedVersion atInit attach txn with
      | none => simp [planned, current, SameVersion] at same
      | some right =>
          rw [planned, current] at same
          simp [anchorOfNumber, toInt?_of_same left right same]

private theorem answeredAnchor_apart (attach : Bytes) (txn : Option Bytes)
    (apart : AnchoredApart (reportedVersion atPlan attach txn)
      (reportedVersion atInit attach txn)) :
    ∃ planned current, answeredAnchor atPlan txn attach = some planned ∧
      answeredAnchor atInit txn attach = some current ∧ planned ≠ current := by
  rw [answeredAnchor_reported, answeredAnchor_reported]
  cases planned : reportedVersion atPlan attach txn with
  | none => simp [planned, AnchoredApart] at apart
  | some left =>
      cases current : reportedVersion atInit attach txn with
      | none => simp [planned, current, AnchoredApart] at apart
      | some right =>
          rw [planned, current] at apart
          obtain ⟨leftValue, rightValue, leftIs, rightIs, different⟩ := apart
          refine ⟨splitAnchor leftValue, splitAnchor rightValue, ?_, ?_, ?_⟩
          · simp [anchorOfNumber, leftIs]
          · simp [anchorOfNumber, rightIs]
          · intro equal
            have read := congrArg int64Value equal
            simp only [splitAnchor, int64Value_int64Bytes, Int.bmod_def] at read
            split at read <;> split at read <;> omega

private theorem plannedAnchor_answered (alike : minted.FormsAlike crypto atPlan atInit)
    (anchor : Bytes)
    (reported : answeredAnchor atPlan minted.transaction minted.attach = some anchor) :
    minted.plannedAnchor crypto atPlan = anchor := by
  unfold MintedBind.plannedAnchor
  rw [alike.planned, reported]
  cases held : answeredAnchor atPlan (minted.transactionEnvelope crypto)
      (minted.attachEnvelope crypto) with
  | none => rfl
  | some other => exact alike.presented anchor reported other held

private theorem expectedAnchor_answered (alike : minted.FormsAlike crypto atPlan atInit)
    (anchor : Bytes)
    (reported : answeredAnchor atInit minted.transaction minted.attach = some anchor) :
    minted.expectedAnchor crypto atInit = some anchor := by
  unfold MintedBind.expectedAnchor
  rw [alike.redeemed, reported]
  rfl

private theorem expectedAnchor_unanswered (alike : minted.FormsAlike crypto atPlan atInit)
    (reported : answeredAnchor atInit minted.transaction minted.attach = none) :
    minted.expectedAnchor crypto atInit = none := by
  unfold MintedBind.expectedAnchor
  rw [alike.redeemed, reported, Option.none_or]
  exact Option.bind_eq_none_iff.mpr (alike.openedAgain reported)

/-! ## Both sides -/

private theorem liveSplitAnchor_eq (catalog : Option CatalogInterface) (bindCall : BindRequest)
    (auth : Option AuthContext) (signingKey : Option Bytes) (raw : Bytes)
    (attach : bindCall.attachOpaqueData = some raw) :
    liveSplitAnchor crypto catalog bindCall auth signingKey =
      (answeredAnchor catalog bindCall.transactionOpaqueData raw).or
        ((openAttach crypto raw auth signingKey).toOption.bind
          (answeredAnchor catalog bindCall.transactionOpaqueData)) := by
  unfold liveSplitAnchor answeredAnchor
  rw [attach]
  cases catalog.bind CatalogInterface.version with
  | none =>
      cases (openAttach crypto raw auth signingKey).toOption with
      | none => rfl
      | some opened => rfl
  | some version => rfl

theorem attachEnvelope_ne_nil : minted.attachEnvelope crypto ≠ [] := by
  unfold MintedBind.attachEnvelope sealAttach
  cases minted.signingKey with
  | none =>
      have length := minted.uuid.length_eq
      intro empty
      have short := congrArg List.length empty
      simp [length, attachUuidLength] at short
  | some key => exact List.cons_ne_nil _ _

variable (lawful : LawfulAead crypto)

include lawful

private theorem planAnchor_minted (bindCall : BindRequest)
    (carries : minted.Carries crypto bindCall) (plan : PlanResult)
    (unset : plan.catalogVersion = none) :
    planAnchor crypto ⟨registry, minted.signingKey, atPlan⟩ plan bindCall
      (CallScope.unary minted.caller) = .ok (minted.plannedAnchor crypto atPlan) := by
  have opened : openAttach crypto (minted.attachEnvelope crypto) minted.caller minted.signingKey =
      .ok minted.attach := openAttach_sealAttach crypto lawful _ _ _ _ _
  simp only [planAnchor, unset, CallScope.unary]
  rw [liveSplitAnchor_eq crypto atPlan bindCall _ _ _ carries.attach, carries.transaction, opened]
  rfl

/-- A token opens to its payload once its anchor passes. -/
private theorem openSplitToken_built (payload fingerprint anchor token : Bytes)
    (signingKey : Option Bytes) (auth : Option AuthContext) (current : Option Bytes) (nonce : Nonce)
    (built : buildSplitToken crypto ⟨payload, fingerprint, anchor, signingKey, auth⟩ nonce =
      .ok token) :
    openSplitToken crypto token ⟨signingKey, auth, some fingerprint, current⟩ =
      (checkSplitBinding fingerprint anchor ⟨signingKey, auth, some fingerprint, current⟩ >>=
        fun _ => .ok payload) := by
  obtain ⟨length, bound, rfl⟩ := buildSplitToken_ok crypto _ nonce token built
  have opens := openSplitToken_body crypto fingerprint anchor
    (match signingKey with
    | none => payload
    | some key => sealBytes crypto payload key
        (splitTokenAad (splitTokenBody signingKey.isSome fingerprint anchor) auth) sealVersion nonce)
    ⟨signingKey, auth, some fingerprint, current⟩ length bound
  cases signingKey with
  | none => exact opens
  | some key =>
      refine opens.trans ?_
      congr 1
      funext _
      simp only [openSplitPayload]
      rw [openBytes_sealed crypto lawful]

/-- A token meets the current anchor: it opens, or it is stale. -/
private theorem openSplitToken_current (payload fingerprint anchor token : Bytes)
    (signingKey : Option Bytes) (auth : Option AuthContext) (current : Option Bytes) (nonce : Nonce)
    (built : buildSplitToken crypto ⟨payload, fingerprint, anchor, signingKey, auth⟩ nonce =
      .ok token) :
    openSplitToken crypto token ⟨signingKey, auth, some fingerprint, current⟩ =
      if ∀ held ∈ current, held = anchor then .ok payload
      else .error (.splitTokenError .snapshotExpired
        (text "split snapshot expired; re-run the query")) := by
  rw [openSplitToken_built crypto lawful _ _ _ _ _ _ _ _ built]
  have bound : refuseToken ((some fingerprint).any (· ≠ fingerprint))
      (text "split token was minted for a different bind (fingerprint mismatch)") = .ok () :=
    if_neg (by simp)
  unfold checkSplitBinding
  rw [bound, except_ok_bind]
  cases current with
  | none => simp
  | some held =>
      by_cases same : held = anchor
      · simp [same]
      · simp [same]

/-- The splits of a plan with their tokens: each token is built from the payload of its split. -/
private theorem built_of_planned (request : TableFunctionPlanRequest) (bindCallIpc : Bytes)
    (nonces : Nat → Nonce) (plan : PlanResult) (tokens : List Bytes)
    (carries : minted.Carries crypto request.bindCall)
    (planned : tableFunctionPlan crypto fingerprintInputs ⟨registry, minted.signingKey, atPlan⟩
      request bindCallIpc (CallScope.unary minted.caller) nonces = .ok (plan, tokens))
    (unset : plan.catalogVersion = none) :
    ∃ scan, fingerprintInputs bindCallIpc = .ok scan ∧ tokens.length = plan.splits.length ∧
      ∀ split ∈ plan.splits.zip tokens, ∃ nonce,
        buildSplitToken crypto ⟨split.1.payload, scan.fingerprint crypto,
          minted.plannedAnchor crypto atPlan, minted.signingKey, minted.caller⟩ nonce =
            .ok split.2 := by
  obtain ⟨func, _, planned⟩ := except_bind_ok _ _ _ planned
  obtain ⟨answered, _, planned⟩ := except_bind_ok _ _ _ planned
  obtain ⟨scan, read, planned⟩ := except_bind_ok _ _ _ planned
  obtain ⟨anchor, stamped, planned⟩ := except_bind_ok _ _ _ planned
  obtain ⟨made, each, planned⟩ := except_bind_ok _ _ _ planned
  cases planned
  rw [planAnchor_minted crypto registry minted atPlan lawful _ carries plan unset] at stamped
  cases stamped
  have related := (except_mapM_iff _ _ _).mp each
  refine ⟨scan, (thrown_ok _ _).mp read, ?_, ?_⟩
  · rw [← related.length_eq, List.length_zipIdx]
  · intro split member
    obtain ⟨index, bound, found⟩ := List.mem_iff_getElem.mp member
    rw [List.getElem_zip] at found
    have inSplits : index < plan.splits.length :=
      lt_of_lt_of_le bound (by rw [List.length_zip]; exact Nat.min_le_left _ _)
    have here : plan.splits.zipIdx[index]? = some (plan.splits[index], index) := by
      rw [List.getElem?_zipIdx, List.getElem?_eq_getElem inSplits]
      simp
    obtain ⟨token, atIndex, builds⟩ := forall₂_getElem? related index _ here
    have tokenIs : token = split.2 := by
      rw [← found]
      exact (List.getElem?_eq_some_iff.mp atIndex).2.symm
    have splitIs : plan.splits[index] = split.1 := by rw [← found]
    refine ⟨nonces index, ?_⟩
    rw [← splitIs, ← tokenIs]
    exact (redeemed_ok _ _).mp builds

/-- The init opens the attach and compares every token with the anchor it expects. -/
private theorem admitPresented_eq (wire : WireInit) (scan : ScanBind)
    (presented : List (ScanSplit × Bytes)) (carries : minted.Carries crypto wire.request.bindCall)
    (read : fingerprintInputs wire.bindCallIpc = .ok scan) :
    admitPresented crypto fingerprintInputs registry minted atInit wire presented =
      ((presented.map Prod.snd).mapM fun token =>
          redeemed (openSplitToken crypto token ⟨minted.signingKey, minted.caller,
            some (scan.fingerprint crypto), minted.expectedAnchor crypto atInit⟩)) >>=
        fun payloads =>
          .ok ((wire.presenting (presented.map Prod.snd)).request.withAttach
            (some minted.attach) |>.withSplitPayloads (some payloads)) := by
  have opened : openAttach crypto (minted.attachEnvelope crypto) minted.caller minted.signingKey =
      .ok minted.attach := openAttach_sealAttach crypto lawful _ _ _ _ _
  have stripped : stripAttach crypto ⟨registry, minted.signingKey, atInit⟩
      wire.request.bindCall.attachOpaqueData (CallScope.stream minted.caller) =
        .ok (some minted.attach) := by
    rw [carries.attach]
    simp only [stripAttach]
    rw [if_neg (attachEnvelope_ne_nil crypto minted), CallScope.auth_stream, opened]
    rfl
  have current : liveSplitAnchor crypto atInit
      (wire.request.bindCall.withAttach (some minted.attach)) minted.caller minted.signingKey =
        minted.expectedAnchor crypto atInit := by
    rw [liveSplitAnchor_eq crypto atInit _ _ _ minted.attach rfl]
    simp only [BindRequest.withAttach, carries.transaction]
    rfl
  unfold admitPresented admitInit
  change (refused (stripAttach crypto _ wire.request.bindCall.attachOpaqueData _) >>= _) = _
  rw [stripped, (refused_ok _ _).mpr rfl, except_ok_bind]
  simp only [resolveSplitPayloads, WireInit.presenting, InitRequest.withAttach,
    CallScope.auth_stream, if_true]
  rw [read, current, (thrown_ok _ _).mpr rfl, except_ok_bind]

/-- Presented splits of a plan are all admitted or all stale. -/
private theorem admitPresented_outcome (wire : WireInit) (scan : ScanBind)
    (presented : List (ScanSplit × Bytes)) (carries : minted.Carries crypto wire.request.bindCall)
    (read : fingerprintInputs wire.bindCallIpc = .ok scan)
    (built : ∀ split ∈ presented, ∃ nonce,
      buildSplitToken crypto ⟨split.1.payload, scan.fingerprint crypto,
        minted.plannedAnchor crypto atPlan, minted.signingKey, minted.caller⟩ nonce =
          .ok split.2) :
    ((∀ held ∈ minted.expectedAnchor crypto atInit, held = minted.plannedAnchor crypto atPlan) →
      ∃ request, admitPresented crypto fingerprintInputs registry minted atInit wire presented =
          .ok request ∧
        request.splitPayloads = some (presented.map fun split => split.1.payload)) ∧
    ((∃ held ∈ minted.expectedAnchor crypto atInit, held ≠ minted.plannedAnchor crypto atPlan) →
      presented ≠ [] →
        ∃ message, admitPresented crypto fingerprintInputs registry minted atInit wire presented =
          .error (.splitToken (.splitTokenError .snapshotExpired message))) := by
  have opens : ∀ split ∈ presented,
      openSplitToken crypto split.2 ⟨minted.signingKey, minted.caller,
          some (scan.fingerprint crypto), minted.expectedAnchor crypto atInit⟩ =
        if ∀ held ∈ minted.expectedAnchor crypto atInit,
            held = minted.plannedAnchor crypto atPlan then .ok split.1.payload
        else .error (.splitTokenError .snapshotExpired
          (text "split snapshot expired; re-run the query")) := by
    intro split member
    obtain ⟨nonce, build⟩ := built split member
    exact openSplitToken_current crypto lawful _ _ _ _ _ _ _ nonce build
  rw [admitPresented_eq crypto fingerprintInputs registry minted atInit lawful wire scan presented
    carries read]
  constructor
  · intro current
    have payloads := except_mapM_eq (fun split : ScanSplit × Bytes =>
        redeemed (openSplitToken crypto split.2 ⟨minted.signingKey, minted.caller,
          some (scan.fingerprint crypto), minted.expectedAnchor crypto atInit⟩))
      (fun split => split.1.payload) presented
      (fun split member => by rw [opens split member, if_pos current]; rfl)
    refine ⟨((wire.presenting (presented.map Prod.snd)).request.withAttach
      (some minted.attach)).withSplitPayloads (some (presented.map fun split => split.1.payload)),
      ?_, rfl⟩
    rw [List.mapM_map]
    exact (congrArg (· >>= _) payloads).trans (except_ok_bind _ _)
  · intro stale nonempty
    obtain ⟨held, expected, different⟩ := stale
    have notCurrent : ¬∀ held ∈ minted.expectedAnchor crypto atInit,
        held = minted.plannedAnchor crypto atPlan := fun current => different (current held expected)
    refine ⟨text "split snapshot expired; re-run the query", ?_⟩
    cases presented with
    | nil => exact absurd rfl nonempty
    | cons split rest =>
        rw [List.map_cons, List.mapM_cons, opens split List.mem_cons_self, if_neg notCurrent]
        rfl

omit lawful

/-- An unchanged version is never told apart from the planned one. -/
private theorem current_of_same (alike : minted.FormsAlike crypto atPlan atInit)
    (same : SameVersion (reportedVersion atPlan minted.attach minted.transaction)
      (reportedVersion atInit minted.attach minted.transaction)) :
    ∀ held ∈ minted.expectedAnchor crypto atInit, held = minted.plannedAnchor crypto atPlan := by
  intro held expected
  have anchors := answeredAnchor_same atPlan atInit minted.attach minted.transaction same
  cases reported : answeredAnchor atInit minted.transaction minted.attach with
  | none =>
      rw [expectedAnchor_unanswered crypto minted atPlan atInit alike reported] at expected
      cases expected
  | some anchor =>
      rw [expectedAnchor_answered crypto minted atPlan atInit alike anchor reported] at expected
      rw [← Option.some.inj expected]
      exact (plannedAnchor_answered crypto minted atPlan atInit alike anchor
        (anchors.trans reported)).symm

/-- A changed version is told apart from the planned one. -/
private theorem stale_of_different (alike : minted.FormsAlike crypto atPlan atInit)
    (different : DifferentVersions (reportedVersion atPlan minted.attach minted.transaction)
      (reportedVersion atInit minted.attach minted.transaction)) :
    ∃ held ∈ minted.expectedAnchor crypto atInit, held ≠ minted.plannedAnchor crypto atPlan := by
  obtain ⟨planned, current, atPlanIs, atInitIs, apart⟩ :=
    answeredAnchor_apart atPlan atInit minted.attach minted.transaction (alike.apart different)
  rw [plannedAnchor_answered crypto minted atPlan atInit alike planned atPlanIs,
    expectedAnchor_answered crypto minted atPlan atInit alike current atInitIs]
  exact ⟨current, rfl, apart.symm⟩

include lawful

end

/-! ## Samples -/

/-- A catalog that answers every form of an attach with one version. -/
def uniformCatalog (version : Int) : CatalogInterface where
  catalogNameForAttach := fun _ => .ok none
  version := some fun _ _ => .ok (Number.ofInt version)

def sampleFunction : VgiFunction where
  kind := text "table"
  globalInit := fun _ => .ok ⟨Number.zero, [], none⟩
  plan := none
  cardinality := true
  statistics := true
  dynamicToString := true
  projection := true

def sampleBindRequest (attach transaction : Option Bytes) : BindRequest where
  functionName := text "scan"
  arguments := .empty
  functionType := .table
  inputSchema := none
  settings := none
  secrets := none
  attachOpaqueData := attach
  transactionOpaqueData := transaction
  resolvedSecretsProvided := false
  copyFrom := none
  copyTo := none
  atUnit := none
  atValue := none
  schemaPath := none
  argumentNames := none

def sampleInitRequest (bindCall : BindRequest) : InitRequest where
  bindCall := bindCall
  outputSchema := ⟨[], .empty⟩
  bindOpaqueData := none
  projectionIds := none
  pushdownFilters := none
  joinKeys := []
  phase := none
  finalizeStateId := none
  splitTokens := none
  splitPayloads := none
  rowLimit := none
  executionId := none
  initOpaqueData := none
  substreamId := none
  orderByColumnName := none
  orderByDirection := none
  orderByNullOrder := none
  orderByLimit := none
  tablesamplePercentage := none
  tablesampleSeed := none

def samplePlanRequest (bindCall : BindRequest) : TableFunctionPlanRequest where
  bindCall := bindCall
  bindOpaqueData := none
  projectionIds := none
  pushdownFilters := none
  joinKeys := none
  rowLimit := none
  targetSplitBytes := none
  minSplits := none
  maxSplitsPerResponse := none
  cursor := none
  refinedFilters := none
  filtersComplete := true
  startPosition := none
  endPosition := none
  orderByColumnName := none
  orderByDirection := none
  orderByNullOrder := none
  orderByLimit := none
  tablesamplePercentage := none
  tablesampleSeed := none

def sampleMinted (signingKey : Option Bytes) (attach : Bytes) : MintedBind where
  caller := some ⟨true, some (text "jwt"), some (text "alice")⟩
  signingKey := signingKey
  attach := attach
  transaction := none
  uuid := sampleUuid 1
  attachNonce := sampleNonce
  transactionNonce := sampleNonce

def sampleBindCall (minted : MintedBind) : BindRequest :=
  sampleBindRequest (some (minted.attachEnvelope taggingAead))
    (minted.transactionEnvelope taggingAead)

def sampleInputs (_ : Bytes) : Except Text ScanBind :=
  .ok (sampleScan [1] [2] none)

def sampleRegistry (_ : Text) (_ : OverloadContext) : Except Text VgiFunction :=
  .ok sampleFunction

private def isStale {α : Type} : Except HandlerFault α → Bool
  | .error (.splitToken (.splitTokenError .snapshotExpired _)) => true
  | _ => false

private theorem message_of_isStale {α : Type} (result : Except HandlerFault α)
    (stale : isStale result = true) :
    ∃ message, result = .error (.splitToken (.splitTokenError .snapshotExpired message)) := by
  unfold isStale at stale
  split at stale
  · rename_i message
    exact ⟨message, rfl⟩
  · cases stale

/-- The token of the one split of a plan without a hook. -/
private def sampleToken (signingKey : Option Bytes) (version : Int) : Bytes :=
  let body := splitTokenBody signingKey.isSome (List.replicate fingerprintLength 0)
    (splitAnchor version)
  match signingKey with
  | none => body
  | some key =>
      body ++ sealBytes taggingAead [] key
        (splitTokenAad body (some ⟨true, some (text "jwt"), some (text "alice")⟩)) sealVersion
        sampleNonce

/-- A catalog that answers every form with one version answers them alike. -/
private theorem formsAlike_uniform (minted : MintedBind) (version : Int)
    (opened : (openAttach taggingAead minted.attach minted.caller minted.signingKey).toOption =
      none) :
    minted.FormsAlike taggingAead (some (uniformCatalog version)) (some (uniformCatalog version)) where
  presented := by
    intro anchor reported held answered
    exact Option.some.inj (answered.symm.trans reported)
  planned := rfl
  redeemed := rfl
  openedAgain := by
    intro _ other member
    rw [opened] at member
    cases member
  apart := fun different => absurd (Or.inl rfl) different

end VgiWorker.Protocol
