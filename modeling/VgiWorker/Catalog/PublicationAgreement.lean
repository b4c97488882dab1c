import VgiWorker.Catalog.PublicationSteps

/-!
# Agreement of publishers

Publishers that race on one key. While nothing is removed from the repository, what
any of them holds goes back to the manifest that is stored.
-/

set_option autoImplicit false

namespace VgiWorker.Catalog

open Js

/-- One publication: the same commit, and equal in all that a renewal keeps. -/
structure SamePublication (left right : Held) : Prop where
  commit : left.commit = right.commit
  unchanged : left.manifest.unchanged = right.manifest.unchanged

/-- Every put of the run was a commit. -/
def Repository.Unrenewed (r : Repository) : Prop :=
  r.puts = r.commits

instance (r : Repository) : Decidable r.Unrenewed :=
  inferInstanceAs (Decidable (r.puts = r.commits))

/-- The held manifest is the stored one, up to a renewal that the run has stored. -/
def Repository.Agrees (r : Repository) (held : Held) : Prop :=
  ∃ current : StoredManifest, r.stored = some current ∧ SamePublication held current.held ∧
    (r.Unrenewed → held = current.held)

/-- The action is part of an invalidation, a manager's or the one a recovery makes of a
stored manifest that failed its validation. -/
def Publishers.invalidates (s : Publishers) : PublisherAction → Prop
  | .invalidate _ _ => True
  | .withdraw _ _ => True
  | .recover manager _ =>
      ∃ pending : PendingWarm, (s.managers manager).pending = some pending ∧
        pending.phase.withdraws = true
  | .warm _ _ => False
  | .evict _ => False

def Publishers.keepsAll (s : Publishers) (action : PublisherAction) : Prop :=
  ¬ s.invalidates action

/-- Every manifest that is kept or was returned is the stored one. -/
structure Publishers.Agreed (s : Publishers) : Prop where
  counted : s.repository.commits ≤ s.repository.puts
  kept : ∀ (manager : Nat) (held : Held),
    (s.managers manager).Keeps held → s.repository.Agrees held
  returned : ∀ entry : Returned, entry ∈ s.returned → s.repository.Agrees entry.held

section

variable {policy : CatalogSnapshotPolicy} {target : PublicationTarget} {world : Circumstances}

theorem SamePublication.refl (held : Held) : SamePublication held held := ⟨rfl, rfl⟩

theorem SamePublication.trans {first second third : Held} (left : SamePublication first second)
    (right : SamePublication second third) : SamePublication first third :=
  ⟨left.commit.trans right.commit, left.unchanged.trans right.unchanged⟩

theorem SamePublication.symm {left right : Held} (same : SamePublication left right) :
    SamePublication right left :=
  ⟨same.commit.symm, same.unchanged.symm⟩

private theorem agrees_stored {r : Repository} {stored : StoredManifest}
    (found : r.stored = some stored) : r.Agrees stored.held :=
  ⟨stored, found, .refl _, fun _ => rfl⟩

private theorem moves_counted {r after : Repository} {phase : Recovery}
    (moves : Moves world r phase after) (counted : r.commits ≤ r.puts) :
    after.commits ≤ after.puts := by
  cases moves with
  | kept => exact counted
  | committed => exact Nat.succ_le_succ counted
  | renewed => exact Nat.le_succ_of_le counted
  | removed => exact counted

/-- A step that removes nothing leaves what agreed in agreement. -/
private theorem moves_agrees {r after : Repository} {phase : Recovery} {held : Held}
    (moves : Moves world r phase after) (counted : r.commits ≤ r.puts)
    (stays : phase.withdraws = false)
    (carried : ∀ existing : Held, phase.carried = some existing → r.Agrees existing)
    (agrees : r.Agrees held) : after.Agrees held := by
  obtain ⟨current, found, same, unrenewed⟩ := agrees
  cases moves with
  | kept => exact ⟨current, found, same, unrenewed⟩
  | committed _ missing =>
      rw [missing] at found
      cases found
  | renewed stored existing etag renewed stands renewing _ =>
      cases found.symm.trans stands
      subst renewing
      obtain ⟨_, foundAgain, sameExisting, _⟩ := carried existing rfl
      cases found.symm.trans foundAgain
      refine ⟨_, rfl, ⟨same.commit, ?_⟩, fun counts => ?_⟩
      · calc held.manifest.unchanged = current.held.manifest.unchanged := same.unchanged
          _ = existing.manifest.unchanged := sameExisting.unchanged.symm
          _ = renewed.val.unchanged := renewed.property
      · -- a renewal is a put without a commit
        have : r.puts + 1 = r.commits := counts
        omega
  | removed withdraws => exact absurd withdraws (by simp [stays])

private theorem taken_agrees {r after : Repository} {phase : Recovery} {held : Held}
    (taken : Taken world r phase after held)
    (carried : ∀ existing : Held, phase.carried = some existing → after.Agrees existing) :
    after.Agrees held := by
  cases taken with
  | kept carries => exact carried held carries
  | read current stored _ _ stands same _ => exact same ▸ agrees_stored stands
  | committed stored _ stands same _ => exact same ▸ agrees_stored stands

end

namespace Publishers

variable {policies : Nat → CatalogSnapshotPolicy} {target : PublicationTarget}

theorem recover_eq_some {s after : Publishers} {policy : CatalogSnapshotPolicy} {manager : Nat}
    {world : Circumstances} (recovered : s.recover policy target manager world = some after) :
    ∃ (pending : PendingWarm) (repository : Repository) (progress : Progress),
      (s.managers manager).pending = some pending ∧
        advance policy target world s.repository pending.phase = (repository, progress) ∧
          after = settle { s with repository := repository } manager pending progress := by
  unfold recover at recovered
  split at recovered
  · cases recovered
  · rename_i pending found
    exact ⟨pending, _, _, found, rfl, (Option.some.inj recovered).symm⟩

theorem agreed_start (stored : Option CatalogPublicationManifest) : (start stored).Agreed := by
  refine ⟨Nat.le_refl 1, fun manager held keeps => ?_,
    fun entry member => absurd member List.not_mem_nil⟩
  cases keeps with
  | cached cached => cases cached
  | pending _ found _ => cases found

/-- No step that keeps what is stored ends the agreement. -/
theorem agreed_step {s after : Publishers} {action : PublisherAction} (agreed : s.Agreed)
    (keeps : s.keepsAll action) (stepped : s.step policies target action = some after) :
    after.Agreed := by
  cases action with
  | warm manager now =>
      cases stepped
      refine ⟨?_, fun other held kept => ?_, fun entry member => ?_⟩
      · rw [warm_repository]
        exact agreed.counted
      · rw [warm_repository]
        exact agreed.kept other held (warm_keeps _ s manager now kept)
      · rw [warm_repository]
        rcases warm_returned _ s manager now member with before | ⟨cached, _⟩
        · exact agreed.returned entry before
        · exact agreed.kept entry.manager entry.held (.cached cached)
  | recover manager world =>
      obtain ⟨pending, repository, progress, found, advanced, rfl⟩ := recover_eq_some stepped
      have moves : Moves world s.repository pending.phase repository := by
        have moved := advance_moves (policies manager) target world s.repository pending.phase
        rwa [advanced] at moved
      have stays : pending.phase.withdraws = false := by
        cases withdrawing : pending.phase.withdraws with
        | false => rfl
        | true => exact absurd ⟨pending, found, withdrawing⟩ keeps
      have carried (existing : Held) (carries : pending.phase.carried = some existing) :
          s.repository.Agrees existing :=
        agreed.kept manager existing (.pending pending found carries)
      have still {held : Held} (agrees : s.repository.Agrees held) : repository.Agrees held :=
        moves_agrees moves agreed.counted stays carried agrees
      have taken {held : Held} (carries : progress.carried = some held) :
          repository.Agrees held :=
        taken_agrees (advance_taken _ _ _ _ advanced carries)
          (fun existing kept => still (carried existing kept))
      refine ⟨?_, fun other held kept => ?_, fun entry member => ?_⟩
      · rw [settle_repository]
        exact moves_counted moves agreed.counted
      · rw [settle_repository]
        rcases settle_keeps _ manager pending progress kept with before | ⟨_, carries⟩
        · exact still (agreed.kept other held before)
        · exact taken carries
      · rw [settle_repository]
        rcases settle_returned _ manager pending progress member with before | ⟨_, _, carries⟩
        · exact still (agreed.returned entry before)
        · exact taken carries
  | evict manager =>
      cases stepped
      exact ⟨agreed.counted, fun other held kept => agreed.kept other held (forget_keeps s kept),
        agreed.returned⟩
  | invalidate call manager => exact absurd trivial keeps
  | withdraw call world => exact absurd trivial keeps

/-- In a run without an invalidation all calls of `warm` that succeed return one publication,
the stored one; where no renewal was stored they return the very same manifest. -/
theorem publishers_agree (stored : Option CatalogPublicationManifest) {s : Publishers}
    (run : Data.Runs (step policies target) keepsAll (start stored) s) :
    (∀ entry : Returned, entry ∈ s.returned →
      ∃ current : StoredManifest, s.repository.stored = some current ∧
        SamePublication entry.held current.held ∧
          (s.repository.Unrenewed → entry.held = current.held)) ∧
    (∀ first second : Returned, first ∈ s.returned → second ∈ s.returned →
      SamePublication first.held second.held ∧
        (s.repository.Unrenewed → first.held = second.held)) := by
  have agreed : s.Agreed :=
    run.invariant (agreed_start stored) fun _ _ _ agreed keeps stepped =>
      agreed_step agreed keeps stepped
  refine ⟨agreed.returned, fun first second firstMember secondMember => ?_⟩
  obtain ⟨current, found, sameFirst, exactFirst⟩ := agreed.returned first firstMember
  obtain ⟨_, foundAgain, sameSecond, exactSecond⟩ := agreed.returned second secondMember
  cases found.symm.trans foundAgain
  exact ⟨sameFirst.trans sameSecond.symm,
    fun unrenewed => (exactFirst unrenewed).trans (exactSecond unrenewed).symm⟩

/-! ## Two publishers -/

def steadyPolicies : Nat → CatalogSnapshotPolicy := fun _ =>
  { maxRawBytes := none, maxStoredBytes := none, referenceGraceMs := none }

def signedTarget : PublicationTarget :=
  { key := text "k", protocolName := text "vgi.v3", protocolVersion := text "3.1.0",
    contractHash := text "c", catalogVersion := 1, compression := text "identity",
    renews := true }

/-- An upload whose URL expires after a thousand seconds. -/
def uploaded (manifestId : String) : BuiltSnapshot :=
  { notModified := false, catalogVersion := 1, decodes := true, etag := none,
    contentsDigest := text "e", manifestId := text manifestId, rawSize := 10, storedSize := 10,
    sha256 := List.replicate 64 0x30, url := text "u", objectId := some (text "o"),
    expiresAt := some 1000000, retainUntil := none, stable := false }

def calm : Circumstances :=
  { now := 0, delivery := .answered, readback := true, signed := none, built := none }

def builds (manifestId : String) : Circumstances :=
  { calm with built := some (uploaded manifestId) }

/-- Just before the URL expires, with a signer that gives a new one. -/
def expiring : Circumstances :=
  { calm with
    now := 990000,
    signed := some { manifestId := text "m3", url := text "v", expiresAt := some 2000000,
                     stable := none } }

def keepsAllHere (s : Publishers) : PublisherAction → Bool
  | .invalidate _ _ => false
  | .withdraw _ _ => false
  | .recover manager _ => (s.managers manager).pending.all fun pending => !pending.phase.withdraws
  | .warm _ _ => true
  | .evict _ => true

theorem keepsAllHere_sound (s : Publishers) (action : PublisherAction)
    (allows : s.keepsAllHere action = true) : s.keepsAll action := by
  intro invalidates
  cases action with
  | invalidate call manager => cases allows
  | withdraw call world => cases allows
  | recover manager world =>
      obtain ⟨pending, found, withdraws⟩ := invalidates
      simp [keepsAllHere, found, withdraws] at allows
  | warm manager now => exact invalidates
  | evict manager => exact invalidates

/-- Both find nothing and build; the second commits first and the first adopts its manifest. -/
def race : List PublisherAction :=
  [.warm 0 0, .warm 1 0, .recover 0 calm, .recover 1 calm, .recover 0 (builds "m1"),
    .recover 1 (builds "m2"), .recover 1 calm, .recover 0 calm, .recover 0 calm, .recover 0 calm]

/-- One publishes; the other finds the URL about to expire and renews it. -/
def renewal : List PublisherAction :=
  [.warm 0 0, .recover 0 calm, .recover 0 (builds "m1"), .recover 0 calm, .warm 1 990000,
    .recover 1 expiring, .recover 1 expiring, .recover 1 expiring, .recover 1 expiring,
    .recover 1 expiring]

/-- One publishes; the other fails to read the object back and replaces the manifest. -/
def unreadable : List PublisherAction :=
  [.warm 0 0, .recover 0 calm, .recover 0 (builds "m1"), .recover 0 calm, .warm 1 0,
    .recover 1 calm, .recover 1 { calm with readback := false }, .recover 1 calm, .recover 1 calm,
    .recover 1 (builds "m2"), .recover 1 calm]

/-- The calls of a run, in the order they returned: who returned which commit. -/
def answers (s : Publishers) : List (Nat × Text × Nat) :=
  s.returned.map fun entry =>
    (entry.manager, entry.held.manifest.manifestId, entry.held.commit)

theorem publishers_agree_race :
    ∃ s : Publishers, s.answers = [(1, text "m2", 1), (0, text "m2", 1)] ∧
      s.repository.Unrenewed ∧
        ∀ first second : Returned, first ∈ s.returned → second ∈ s.returned →
          SamePublication first.held second.held ∧
            (s.repository.Unrenewed → first.held = second.held) := by
  have outcome :
      (Data.follow (step steadyPolicies signedTarget) keepsAllHere (start none) race).any
        (fun s => s.answers = [(1, text "m2", 1), (0, text "m2", 1)]
          && s.repository.Unrenewed) = true := by
    decide +kernel
  obtain ⟨s, followed, ends⟩ := (Option.any_eq_true ..).mp outcome
  obtain ⟨answered, unrenewed⟩ := Bool.and_eq_true_iff.mp ends
  exact ⟨s, of_decide_eq_true answered, of_decide_eq_true unrenewed,
    (publishers_agree none (Data.Runs.start.follow keepsAllHere_sound followed)).2⟩

/-- All that was returned is one manifest, to the letter. -/
def OneManifest (s : Publishers) : Prop :=
  ∀ first second : Returned, first ∈ s.returned → second ∈ s.returned →
    first.held.manifest = second.held.manifest

private theorem two_manifests {s : Publishers} {first second : Nat × Text × Nat}
    (answered : s.answers = [first, second]) (different : first.2.1 ≠ second.2.1) :
    ¬ s.OneManifest := by
  intro one
  have firstMember : first ∈ s.answers := by simp [answered]
  have secondMember : second ∈ s.answers := by simp [answered]
  obtain ⟨left, leftMember, rfl⟩ := List.mem_map.mp firstMember
  obtain ⟨right, rightMember, rfl⟩ := List.mem_map.mp secondMember
  exact different (congrArg CatalogPublicationManifest.manifestId
    (one left right leftMember rightMember))

/-- The action is no part of a call of `invalidate`. -/
def callsNoInvalidation (_ : Publishers) : PublisherAction → Bool
  | .invalidate _ _ => false
  | .withdraw _ _ => false
  | .recover _ _ => true
  | .warm _ _ => true
  | .evict _ => true

/-- Without a call of `invalidate` two calls can still return different manifests: where a
renewal was stored between them, and where one failed to read the stored object back. -/
theorem renewed_and_rebuilt_differ :
    ¬ (∀ s : Publishers,
      Data.Runs (step steadyPolicies signedTarget) keepsAll (start none) s → s.OneManifest) ∧
    ¬ (∀ s : Publishers,
      Data.Runs (step steadyPolicies signedTarget)
        (fun s action => s.callsNoInvalidation action = true) (start none) s →
          s.repository.Unrenewed → s.OneManifest) := by
  refine ⟨fun claimed => ?_, fun claimed => ?_⟩
  · have outcome :
        (Data.follow (step steadyPolicies signedTarget) keepsAllHere (start none) renewal).any
          (fun s => s.answers = [(0, text "m1", 1), (1, text "m3", 1)]) = true := by
      decide +kernel
    obtain ⟨s, followed, answered⟩ := (Option.any_eq_true ..).mp outcome
    exact two_manifests (of_decide_eq_true answered) (by decide)
      (claimed s (Data.Runs.start.follow keepsAllHere_sound followed))
  · have outcome :
        (Data.follow (step steadyPolicies signedTarget) callsNoInvalidation (start none)
          unreadable).any
          (fun s => s.answers = [(0, text "m1", 1), (1, text "m2", 2)]
            && s.repository.Unrenewed) = true := by
      decide +kernel
    obtain ⟨s, followed, ends⟩ := (Option.any_eq_true ..).mp outcome
    obtain ⟨answered, unrenewed⟩ := Bool.and_eq_true_iff.mp ends
    exact two_manifests (of_decide_eq_true answered) (by decide)
      (claimed s (Data.Runs.start.follow (fun _ _ allows => allows) followed)
        (of_decide_eq_true unrenewed))

end Publishers

end VgiWorker.Catalog
