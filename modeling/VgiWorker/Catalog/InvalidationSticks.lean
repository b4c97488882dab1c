import VgiWorker.Catalog.PublicationSteps
import VgiWorker.Catalog.PublicationAgreement

/-!
# Whether an invalidation sticks

`invalidate` removes the manifest that its manager last saw. What it leaves behind is
what others make of that manifest meanwhile: a renewal stored under a new identifier,
and a recovery of the same manager that read it before the removal.
-/

set_option autoImplicit false

namespace VgiWorker.Catalog

open Js

/-! ## The condition -/

namespace Withdrawal

/-- The manager's cache is dropped and the stored manifest is still to be removed. -/
def removing : Withdrawal → Bool
  | .get _ => true
  | .delete _ => true
  | .waiting _ => false
  | .lookup => false

/-- What the invalidation is about to remove. -/
def aims : Withdrawal → StoredManifest → Prop
  | .get expected, current => current.held.manifest.manifestSame expected.manifest = true
  | .delete etag, current => current.etag = etag
  | .waiting _, _ => False
  | .lookup, _ => False

end Withdrawal

namespace Publishers

/-- The pending recovery of the manager holds nothing from before the bound. -/
def CarriesFrom (s : Publishers) (manager bound : Nat) : Prop :=
  ∀ (pending : PendingWarm) (held : Held), (s.managers manager).pending = some pending →
    pending.phase.carried = some held → bound ≤ held.commit

/-- No step gets in the way of an invalidation. While it removes a manifest, nobody renews
that manifest and no recovery of its manager reads it; when it drops the cache, the pending
recovery has not read it either; and a cached manifest is the stored one, not one renewed. -/
def Undisturbed (s : Publishers) : PublisherAction → Prop
  | .recover manager world =>
      ∀ (pending : PendingWarm) (current : StoredManifest) (call : Nat) (running : Invalidation),
        (s.managers manager).pending = some pending → s.repository.stored = some current →
          s.invalidations call = some running → running.phase.removing = true →
            current.held.commit < running.begun →
              ¬ pending.phase.replaces world current ∧
                (running.manager = manager → ¬ pending.phase.reads world current)
  | .withdraw call world =>
      ∀ running : Invalidation, s.invalidations call = some running →
        match running.phase with
        | .waiting _ =>
            ∀ expected : Held, (s.managers running.manager).cached = some expected →
              s.CarriesFrom running.manager running.begun ∧
                ∀ current : StoredManifest, s.repository.stored = some current →
                  current.held.commit < running.begun →
                    current.held.manifest.manifestSame expected.manifest = true
        | .lookup =>
            world.delivery = .answered → s.CarriesFrom running.manager running.begun
        | .get _ => True
        | .delete _ => True
  | .warm _ _ => True
  | .evict _ => True
  | .invalidate _ _ => True

/-! ## What an invalidation clears -/

/-- The manager keeps nothing from before the bound, and what is stored from before it is
what an invalidation aims at. -/
structure Cleared (s : Publishers) (manager bound : Nat) (aims : StoredManifest → Prop) :
    Prop where
  kept : ∀ held : Held, (s.managers manager).Keeps held → bound ≤ held.commit
  stored : ∀ current : StoredManifest, s.repository.stored = some current →
    bound ≤ current.held.commit ∨ aims current

/-- Past its floor, nothing is left of what a manager has invalidated. -/
structure Sticks (s : Publishers) : Prop where
  begun : ∀ (call : Nat) (running : Invalidation), s.invalidations call = some running →
    running.begun ≤ s.repository.commits
  counted : ∀ manager : Nat, (s.managers manager).floor ≤ s.repository.commits
  cleared : ∀ manager : Nat, s.Cleared manager (s.managers manager).floor fun _ => False
  removing : ∀ (call : Nat) (running : Invalidation), s.invalidations call = some running →
    running.phase.removing = true → s.Cleared running.manager running.begun running.phase.aims
  callers : ∀ (manager : Nat) (pending : PendingWarm) (floor : Nat),
    (s.managers manager).pending = some pending → floor ∈ pending.callers →
      floor ≤ (s.managers manager).floor
  returned : ∀ entry : Returned, entry ∈ s.returned → entry.floor ≤ entry.held.commit

variable {policies : Nat → CatalogSnapshotPolicy} {target : PublicationTarget}

section Cleared

variable {s after : Publishers} {manager bound : Nat} {aims : StoredManifest → Prop}

/-- A state that keeps less and stores less is as clear. -/
theorem Cleared.shrink (cleared : s.Cleared manager bound aims)
    (keeps : ∀ held : Held, (after.managers manager).Keeps held → (s.managers manager).Keeps held)
    (stores : ∀ current : StoredManifest, after.repository.stored = some current →
      s.repository.stored = some current) : after.Cleared manager bound aims :=
  ⟨fun held kept => cleared.kept held (keeps held kept),
    fun current found => cleared.stored current (stores current found)⟩

/-- A step of a recovery that neither renews nor reads what the bound excludes. -/
theorem Cleared.recover {policy : CatalogSnapshotPolicy} {recovering : Nat}
    {world : Circumstances} (cleared : s.Cleared manager bound aims)
    (counted : bound ≤ s.repository.commits)
    (quiet : ∀ (pending : PendingWarm) (current : StoredManifest),
      (s.managers recovering).pending = some pending → s.repository.stored = some current →
        current.held.commit < bound →
          ¬ pending.phase.replaces world current ∧
            (manager = recovering → ¬ pending.phase.reads world current))
    (recovered : s.recover policy target recovering world = some after) :
    after.Cleared manager bound aims := by
  obtain ⟨pending, repository, progress, found, advanced, rfl⟩ := recover_eq_some recovered
  have moves : Moves world s.repository pending.phase repository := by
    have moved := advance_moves policy target world s.repository pending.phase
    rwa [advanced] at moved
  refine ⟨fun held keeps => ?_, fun current stands => ?_⟩
  · rcases settle_keeps _ recovering pending progress keeps with before | ⟨same, carries⟩
    · exact cleared.kept held before
    · subst same
      cases advance_taken _ _ _ _ advanced carries with
      | kept carried => exact cleared.kept held (.pending pending found carried)
      | read current _ stood reads _ _ commit =>
          by_contra old
          exact (quiet pending current found stood (by omega)).2 rfl reads
      | committed _ _ _ _ commit => exact commit ▸ counted
  · rw [settle_repository] at stands
    cases moves with
    | kept => exact cleared.stored current stands
    | committed m missing =>
        cases stands
        exact .inl counted
    | renewed stood existing etag renewed foundStood _ replaces =>
        cases stands
        refine .inl ?_
        by_contra old
        exact (quiet pending stood found foundStood (Nat.lt_of_not_le old)).1 replaces
    | removed withdraws => cases stands

end Cleared

/-! ## One step -/

section Step

variable {s : Publishers}

theorem sticks_start (stored : Option CatalogPublicationManifest) : (start stored).Sticks where
  begun _ _ none := by cases none
  counted _ := Nat.zero_le _
  cleared manager :=
    { kept := fun held _ => Nat.zero_le _, stored := fun current _ => .inl (Nat.zero_le _) }
  removing _ _ none := by cases none
  callers _ _ _ none := by cases none
  returned _ member := absurd member List.not_mem_nil

theorem Sticks.warm (sticks : s.Sticks) (policy : CatalogSnapshotPolicy) (manager : Nat)
    (now : Int) : (s.warm policy manager now).Sticks where
  begun call running found := by
    rw [warm_invalidations] at found
    rw [warm_repository]
    exact sticks.begun call running found
  counted other := by
    rw [warm_floor, warm_repository]
    exact sticks.counted other
  cleared other := by
    rw [warm_floor]
    refine (sticks.cleared other).shrink (fun held => warm_keeps policy s manager now) ?_
    rw [warm_repository]
    exact fun _ => id
  removing call running found removing := by
    rw [warm_invalidations] at found
    refine (sticks.removing call running found removing).shrink
      (fun held => warm_keeps policy s manager now) ?_
    rw [warm_repository]
    exact fun _ => id
  callers other pending floor found caller := by
    rw [warm_floor]
    rcases warm_callers policy s manager now found caller with same | ⟨before, stood, waited⟩
    · exact Nat.le_of_eq same
    · exact sticks.callers other before floor stood waited
  returned entry member := by
    rcases warm_returned policy s manager now member with before | ⟨cached, floor⟩
    · exact sticks.returned entry before
    · rw [floor]
      exact (sticks.cleared entry.manager).kept entry.held (.cached cached)

theorem Sticks.recover {after : Publishers} (sticks : s.Sticks) {manager : Nat}
    {world : Circumstances} (undisturbed : s.Undisturbed (.recover manager world))
    (recovered : s.recover (policies manager) target manager world = some after) :
    after.Sticks := by
  obtain ⟨pending, repository, progress, found, advanced, same⟩ := recover_eq_some recovered
  have grown : s.repository.commits ≤ repository.commits := by
    have moved := advance_moves (policies manager) target world s.repository pending.phase
    rw [advanced] at moved
    exact moved.commits_le
  have cleared (other : Nat) : after.Cleared other (s.managers other).floor fun _ => False := by
    refine (sticks.cleared other).recover (sticks.counted other)
      (fun pending current _ stored old => ?_) recovered
    rcases (sticks.cleared other).stored current stored with fresh | none
    · omega
    · exact none.elim
  have carried (held : Held) (carries : progress.carried = some held) :
      (s.managers manager).floor ≤ held.commit := by
    cases advance_taken _ _ _ _ advanced carries with
    | kept kept => exact (sticks.cleared manager).kept held (.pending pending found kept)
    | read current _ stored _ _ _ commit =>
        rcases (sticks.cleared manager).stored current stored with fresh | none
        · omega
        · exact none.elim
    | committed _ _ _ _ commit => exact commit ▸ sticks.counted manager
  have invalidations : after.invalidations = s.invalidations := by
    rw [same, settle_invalidations]
  have floors (other : Nat) : (after.managers other).floor = (s.managers other).floor := by
    rw [same, settle_floor]
  have repositories : after.repository = repository := by
    rw [same, settle_repository]
  refine ⟨?_, ?_, ?_, ?_, ?_, ?_⟩
  · intro call running stands
    rw [invalidations] at stands
    rw [repositories]
    exact Nat.le_trans (sticks.begun call running stands) grown
  · intro other
    rw [floors, repositories]
    exact Nat.le_trans (sticks.counted other) grown
  · intro other
    rw [floors]
    exact cleared other
  · intro call running stands removing
    rw [invalidations] at stands
    refine (sticks.removing call running stands removing).recover
      (sticks.begun call running stands) (fun pending current standing stored old => ?_) recovered
    exact undisturbed pending current call running standing stored stands removing old
  · intro other waiting floor stands caller
    rw [floors]
    rw [same] at stands
    obtain ⟨before, stood, waited⟩ :=
      settle_callers { s with repository := repository } manager pending progress found stands
        caller
    exact sticks.callers other before floor stood waited
  · intro entry member
    rw [same] at member
    rcases settle_returned _ manager pending progress member with before | ⟨rfl, waited, carries⟩
    · exact sticks.returned entry before
    · exact Nat.le_trans (sticks.callers entry.manager pending entry.floor found waited)
        (carried entry.held carries)

theorem Sticks.forget (sticks : s.Sticks) (manager : Nat) : (s.forget manager).Sticks where
  begun := sticks.begun
  counted other := by
    rw [forget_floor]
    exact sticks.counted other
  cleared other := by
    rw [forget_floor]
    exact (sticks.cleared other).shrink (fun held => forget_keeps s) fun _ => id
  removing call running found removing :=
    (sticks.removing call running found removing).shrink (fun held => forget_keeps s) fun _ => id
  callers other pending floor found caller := by
    rw [forget_pending] at found
    rw [forget_floor]
    exact sticks.callers other pending floor found caller
  returned := sticks.returned

theorem Sticks.setInvalidation (sticks : s.Sticks) (call : Nat) {value : Option Invalidation}
    (set : ∀ running : Invalidation, value = some running →
      running.begun ≤ s.repository.commits ∧ (running.phase.removing = true →
        s.Cleared running.manager running.begun running.phase.aims)) :
    (s.setInvalidation call value).Sticks := by
  have known (other : Nat) (running : Invalidation)
      (found : (s.setInvalidation call value).invalidations other = some running) :
      running.begun ≤ s.repository.commits ∧ (running.phase.removing = true →
        s.Cleared running.manager running.begun running.phase.aims) := by
    by_cases same : other = call
    · subst same
      exact set running (by simpa [Publishers.setInvalidation] using found)
    · have stood : s.invalidations other = some running := by
        simpa [Publishers.setInvalidation, same] using found
      exact ⟨sticks.begun other running stood, sticks.removing other running stood⟩
  exact {
    begun := fun other running found => (known other running found).1
    counted := sticks.counted
    cleared := fun manager => (sticks.cleared manager).shrink (fun _ => id) fun _ => id
    removing := fun other running found removing =>
      ((known other running found).2 removing).shrink (fun _ => id) fun _ => id
    callers := sticks.callers
    returned := sticks.returned }

theorem Sticks.delete (sticks : s.Sticks) (etag : Nat) :
    Sticks { s with repository := s.repository.deleteIfMatch etag } := by
  have stores (current : StoredManifest)
      (found : (s.repository.deleteIfMatch etag).stored = some current) :
      s.repository.stored = some current := by
    rcases s.repository.deleteIfMatch_cases etag with removed | ⟨same, _⟩
    · rw [removed] at found
      cases found
    · rwa [same] at found
  have commits : (s.repository.deleteIfMatch etag).commits = s.repository.commits := by
    rcases s.repository.deleteIfMatch_cases etag with removed | ⟨same, _⟩
    · rw [removed]
    · rw [same]
  exact {
    begun := fun call running found => commits ▸ sticks.begun call running found
    counted := fun manager => commits ▸ sticks.counted manager
    cleared := fun manager => (sticks.cleared manager).shrink (fun _ => id) stores
    removing := fun call running found removing =>
      (sticks.removing call running found removing).shrink (fun _ => id) stores
    callers := sticks.callers
    returned := sticks.returned }

/-- An invalidation resolves where nothing from before it is left. -/
theorem Sticks.resolve (sticks : s.Sticks) (call : Nat) {running : Invalidation}
    (begun : running.begun ≤ s.repository.commits)
    (cleared : s.Cleared running.manager running.begun fun _ => False) :
    (s.resolve call running).Sticks := by
  let raised := { s.managers running.manager with
    floor := max (s.managers running.manager).floor running.begun }
  have keeps (other : Nat) (held : Held)
      (kept : ((s.setManager running.manager raised).managers other).Keeps held) :
      (s.managers other).Keeps held := by
    revert kept
    refine setManager_managers (fun other m => m.Keeps held → (s.managers other).Keeps held)
      (fun kept => ?_) (fun _ _ => id) other
    cases kept with
    | cached cached => exact .cached cached
    | pending _ found carries => exact .pending _ found carries
  have rises : (s.setManager running.manager raised).Sticks := by
    refine ⟨sticks.begun, ?_, ?_, ?_, ?_, sticks.returned⟩
    · exact setManager_managers (fun _ m => m.floor ≤ s.repository.commits)
        (Nat.max_le.mpr ⟨sticks.counted running.manager, begun⟩) fun other _ => sticks.counted other
    · intro other
      by_cases same : other = running.manager
      · subst same
        rw [setManager_same]
        refine ⟨fun held kept => Nat.max_le.mpr ⟨?_, ?_⟩, fun current found => .inl ?_⟩
        · exact (sticks.cleared running.manager).kept held (keeps _ held kept)
        · exact cleared.kept held (keeps _ held kept)
        · exact Nat.max_le.mpr ⟨((sticks.cleared running.manager).stored current found).resolve_right
            id, (cleared.stored current found).resolve_right id⟩
      · rw [setManager_other s raised same]
        exact (sticks.cleared other).shrink (keeps other) fun _ => id
    · intro other started found removing
      exact (sticks.removing other started found removing).shrink (keeps _) fun _ => id
    · intro other pending floor
      refine setManager_managers (fun _ m => m.pending = some pending →
          floor ∈ pending.callers → floor ≤ m.floor) ?_
        (fun other _ found caller => sticks.callers other pending floor found caller) other
      exact fun found caller => Nat.le_trans (sticks.callers _ pending floor found caller)
        (Nat.le_max_left _ _)
  exact rises.setInvalidation call fun _ none => by cases none

theorem Sticks.invalidate {after : Publishers} (sticks : s.Sticks) {call manager : Nat}
    (begins : s.invalidate call manager = some after) : after.Sticks := by
  unfold Publishers.invalidate at begins
  split at begins
  · cases begins
  · cases begins
    refine sticks.setInvalidation call fun running started => ?_
    cases started
    exact ⟨Nat.le_refl _, nofun⟩

/-- Once its cache is dropped a manager keeps only what its recovery carries. -/
theorem forget_cleared {manager bound : Nat} {aims : StoredManifest → Prop}
    (carries : s.CarriesFrom manager bound)
    (stored : ∀ current : StoredManifest, s.repository.stored = some current →
      bound ≤ current.held.commit ∨ aims current) :
    (s.forget manager).Cleared manager bound aims := by
  refine ⟨fun held kept => ?_, stored⟩
  obtain ⟨pending, found, carried⟩ := forget_keeps_same s kept
  exact carries pending held found carried

theorem Sticks.withdraw {after : Publishers} (sticks : s.Sticks) {call : Nat}
    {world : Circumstances} (undisturbed : s.Undisturbed (.withdraw call world))
    (withdrawn : s.withdraw call world = some after) : after.Sticks := by
  unfold Publishers.withdraw at withdrawn
  split at withdrawn
  · cases withdrawn
  rename_i running found
  have begun := sticks.begun call running found
  have allowed := undisturbed running found
  have gone : (s.setInvalidation call none).Sticks :=
    sticks.setInvalidation call fun _ none => by cases none
  dsimp only at withdrawn
  split at withdrawn
  · rename_i pending phase
    rw [phase] at allowed
    split at withdrawn
    · split at withdrawn
      · rename_i expected cached
        cases withdrawn
        obtain ⟨carries, same⟩ := allowed expected cached
        refine (sticks.forget running.manager).setInvalidation call fun moved set => ?_
        cases set
        refine ⟨begun, fun _ => forget_cleared carries fun current stored => ?_⟩
        by_cases fresh : running.begun ≤ current.held.commit
        · exact .inl fresh
        · exact .inr (same current stored (Nat.lt_of_not_le fresh))
      · cases withdrawn
        refine sticks.setInvalidation call fun moved set => ?_
        cases set
        exact ⟨begun, nofun⟩
    · cases withdrawn
  · rename_i phase
    rw [phase] at allowed
    split at withdrawn
    · rename_i answered
      have carries := allowed answered
      split at withdrawn
      · rename_i missing
        cases withdrawn
        refine (sticks.forget running.manager).resolve call begun
          (forget_cleared carries fun current stored => ?_)
        rw [missing] at stored
        cases stored
      · rename_i current stored
        cases withdrawn
        refine (sticks.forget running.manager).setInvalidation call fun moved set => ?_
        cases set
        refine ⟨begun, fun _ => forget_cleared carries fun other stands => ?_⟩
        cases stored.symm.trans stands
        exact .inr (by simp [Withdrawal.aims, CatalogPublicationManifest.manifestSame])
    · cases withdrawn
      exact gone
  · rename_i expected phase
    have cleared := sticks.removing call running found (by rw [phase]; rfl)
    rw [phase] at cleared
    split at withdrawn
    · split at withdrawn
      · rename_i missing
        cases withdrawn
        refine sticks.resolve call begun ⟨cleared.kept, fun current stored => ?_⟩
        rw [missing] at stored
        cases stored
      · rename_i current stored
        split at withdrawn
        · cases withdrawn
          refine sticks.setInvalidation call fun moved set => ?_
          cases set
          refine ⟨begun, fun _ => ⟨cleared.kept, fun other stands => ?_⟩⟩
          cases stored.symm.trans stands
          exact .inr rfl
        · rename_i other
          cases withdrawn
          refine sticks.resolve call begun ⟨cleared.kept, fun current' stands => ?_⟩
          cases stored.symm.trans stands
          exact (cleared.stored current stored).imp id fun aimed => other aimed
    · cases withdrawn
      exact gone
  · rename_i etag phase
    have cleared := sticks.removing call running found (by rw [phase]; rfl)
    rw [phase] at cleared
    have deleted := sticks.delete etag
    have commits : (s.repository.deleteIfMatch etag).commits = s.repository.commits := by
      rcases s.repository.deleteIfMatch_cases etag with removed | ⟨same, _⟩
      · rw [removed]
      · rw [same]
    split at withdrawn
    · cases withdrawn
      refine deleted.resolve call (commits ▸ begun) ⟨cleared.kept, fun current stands => ?_⟩
      rcases s.repository.deleteIfMatch_cases etag with removed | ⟨same, others⟩
      · dsimp only at stands
        rw [removed] at stands
        cases stands
      · dsimp only at stands
        rw [same] at stands
        exact (cleared.stored current stands).imp id fun aimed => others current stands aimed
    · cases withdrawn
      exact gone
    · cases withdrawn
      exact deleted.setInvalidation call fun _ none => by cases none

theorem sticks_step {after : Publishers} {action : PublisherAction} (sticks : s.Sticks)
    (undisturbed : s.Undisturbed action) (stepped : s.step policies target action = some after) :
    after.Sticks := by
  cases action with
  | warm manager now =>
      cases stepped
      exact sticks.warm _ manager now
  | recover manager world => exact sticks.recover undisturbed stepped
  | evict manager =>
      cases stepped
      exact sticks.forget manager
  | invalidate call manager => exact sticks.invalidate stepped
  | withdraw call world => exact sticks.withdraw undisturbed stepped

end Step

/-- In a run whose steps get in the way of no invalidation, no call of `warm` returns a
manifest, or a renewal of one, committed before the beginning of an invalidation of its
manager that had resolved when it was called. -/
theorem invalidation_sticks {s : Publishers} (stored : Option CatalogPublicationManifest)
    (run : Data.Runs (step policies target) Undisturbed (start stored) s) (entry : Returned)
    (returned : entry ∈ s.returned) : entry.floor ≤ entry.held.commit := by
  have sticks : s.Sticks :=
    run.invariant (sticks_start stored) fun _ _ _ sticks undisturbed stepped =>
      sticks_step sticks undisturbed stepped
  exact sticks.returned entry returned

/-! ## One invalidation -/

/-- What was published before the run, under a URL that expires after a thousand seconds. -/
def earlier : CatalogPublicationManifest :=
  { formatVersion := 1, manifestId := text "m1", key := text "k", protocolName := text "vgi.v3",
    protocolVersion := text "3.1.0", contractHash := text "c", codecRevision := 1,
    catalogVersion := 1, etag := text "e", sha256 := List.replicate 64 0x30, rawSize := 10,
    storedSize := 10, url := text "u", objectId := some (text "o"), expiresAt := some 1000000,
    retainUntil := none, stable := false, validated := true }

/-- A sufficient test: recoveries read nothing stored, and an invalidation meets no recovery
and finds the cached manifest stored. -/
def undisturbedHere (s : Publishers) : PublisherAction → Bool
  | .recover manager _ =>
      s.repository.stored.isNone || (s.managers manager).pending.all fun pending =>
        match pending.phase with
        | .building | .validating _ => true
        | _ => false
  | .withdraw call _ =>
      (s.invalidations call).all fun running =>
        (s.managers running.manager).pending.isNone &&
          s.repository.stored.all fun current =>
            (s.managers running.manager).cached.all fun expected =>
              current.held.manifest.manifestSame expected.manifest
  | .warm _ _ => true
  | .evict _ => true
  | .invalidate _ _ => true

theorem undisturbedHere_sound (s : Publishers) (action : PublisherAction)
    (allows : s.undisturbedHere action = true) : s.Undisturbed action := by
  cases action with
  | warm manager now => trivial
  | recover manager world =>
      intro pending current call running found stored _ _ _
      simp only [undisturbedHere, found, stored, Option.isNone_some, Option.all_some,
        Bool.false_or] at allows
      split at allows
      · rename_i phase
        rw [phase]
        exact ⟨id, fun _ => id⟩
      · rename_i phase
        rw [phase]
        exact ⟨id, fun _ => id⟩
      · cases allows
  | evict manager => trivial
  | invalidate call manager => trivial
  | withdraw call world =>
      intro running found
      simp only [undisturbedHere, found, Option.all_some, Bool.and_eq_true,
        Option.isNone_iff_eq_none] at allows
      have carries : s.CarriesFrom running.manager running.begun := by
        intro pending held pends
        rw [allows.1] at pends
        cases pends
      split
      · intro expected cached
        refine ⟨carries, fun current stored _ => ?_⟩
        simpa [stored, cached] using allows.2
      · exact fun _ => carries
      · trivial
      · trivial

/-- A manager publishes, invalidates what it published and publishes anew. -/
def replaced : List PublisherAction :=
  [.warm 0 0, .recover 0 calm, .recover 0 (builds "m1"), .recover 0 calm, .invalidate 0 0,
    .withdraw 0 calm, .withdraw 0 calm, .withdraw 0 calm, .warm 0 0, .recover 0 calm,
    .recover 0 (builds "m2"), .recover 0 calm]

theorem invalidation_sticks_replaced :
    ∃ s : Publishers, s.returned.map (fun entry => (entry.floor, entry.held.commit)) =
      [(0, 1), (2, 2)] ∧ ∀ entry ∈ s.returned, entry.floor ≤ entry.held.commit := by
  have outcome :
      (Data.follow (step steadyPolicies signedTarget) undisturbedHere (start none) replaced).any
        (fun s => s.returned.map (fun entry => (entry.floor, entry.held.commit)) =
          [(0, 1), (2, 2)]) = true := by
    decide +kernel
  obtain ⟨s, followed, outcome⟩ := (Option.any_eq_true ..).mp outcome
  exact ⟨s, of_decide_eq_true outcome, fun entry member => invalidation_sticks none
    (Data.Runs.start.follow undisturbedHere_sound followed) entry member⟩

/-- No builder is there to be called. -/
def buildsNothing (_ : Publishers) : PublisherAction → Bool
  | .recover _ world => world.built.isNone
  | .warm _ _ => true
  | .evict _ => true
  | .invalidate _ _ => true
  | .withdraw _ _ => true

/-- One manager caches the stored manifest and another renews it; the first invalidates what
it has cached and next returns the renewal. -/
def outlived : List PublisherAction :=
  [.warm 0 0, .recover 0 calm, .recover 0 calm, .warm 1 990000, .recover 1 expiring,
    .recover 1 expiring, .recover 1 expiring, .recover 1 expiring, .recover 1 expiring,
    .invalidate 0 0, .withdraw 0 calm, .withdraw 0 calm, .warm 0 990000, .recover 0 expiring,
    .recover 0 expiring]

/-- A renewal of the invalidated manifest is returned without a build. -/
theorem renewal_outlives_invalidation :
    ¬ ∀ s : Publishers,
      Data.Runs (step steadyPolicies signedTarget)
        (fun s action => s.buildsNothing action = true) (start (some earlier)) s →
          ∀ entry ∈ s.returned, entry.floor ≤ entry.held.commit := by
  intro claimed
  have outcome :
      (Data.follow (step steadyPolicies signedTarget) buildsNothing (start (some earlier))
        outlived).any (fun s => s.returned.any fun entry => entry.held.commit < entry.floor) =
          true := by
    decide +kernel
  obtain ⟨s, followed, outcome⟩ := (Option.any_eq_true ..).mp outcome
  obtain ⟨entry, member, before⟩ := List.any_eq_true.mp outcome
  have kept := claimed s (Data.Runs.start.follow (fun _ _ allows => allows) followed) entry member
  exact absurd (of_decide_eq_true before) (Nat.not_lt.mpr kept)

end Publishers

end VgiWorker.Catalog
