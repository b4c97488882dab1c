import VgiWorker.Catalog.Publication
import VgiWorker.Data.GuardedRuns

/-!
# What a step of a publication can do

One step of a recovery changes the repository in at most one of three ways, and
whatever it goes on holding was held before, read from the repository or committed.
-/

set_option autoImplicit false

namespace VgiWorker.Catalog

/-! ## The repository -/

namespace Repository

theorem putIfNoneMatch_eq_some {r after : Repository} {m : CatalogPublicationManifest}
    (put : r.putIfNoneMatch m = some after) :
    r.stored = none ∧
      after = { stored := some { held := { manifest := m, commit := r.commits }, etag := r.puts },
                puts := r.puts + 1, commits := r.commits + 1 } := by
  unfold putIfNoneMatch at put
  split at put
  · exact ⟨‹_›, (Option.some.inj put).symm⟩
  · cases put

theorem putIfMatch_eq_some {r after : Repository} {m : CatalogPublicationManifest} {etag : Nat}
    {held : Held} (put : r.putIfMatch m etag = some (after, held)) :
    ∃ current : StoredManifest, r.stored = some current ∧ current.etag = etag ∧
      held = { manifest := m, commit := current.held.commit } ∧
        after = { stored := some { held := held, etag := r.puts },
                  puts := r.puts + 1, commits := r.commits } := by
  unfold putIfMatch at put
  split at put
  · cases put
  · rename_i current found
    split at put
    · rename_i matched
      cases put
      exact ⟨current, found, matched, rfl, rfl⟩
    · cases put

theorem deleteIfMatch_cases (r : Repository) (etag : Nat) :
    r.deleteIfMatch etag = { r with stored := none } ∨
      (r.deleteIfMatch etag = r ∧
        ∀ current : StoredManifest, r.stored = some current → current.etag ≠ etag) := by
  unfold deleteIfMatch
  split
  · rename_i missing
    exact .inr ⟨rfl, fun _ found => by rw [missing] at found; cases found⟩
  · rename_i current found
    split
    · exact .inl rfl
    · rename_i other
      refine .inr ⟨rfl, fun stored stands => ?_⟩
      rw [found] at stands
      cases stands
      exact other

end Repository

/-! ## A recovery -/

namespace Recovery

/-- The manifest that the recovery may yet return. -/
def carried : Recovery → Option Held
  | .renewGet existing => some existing
  | .renewReference existing _ => some existing
  | .renewPut existing _ _ => some existing
  | .renewLookup existing => some existing
  | .validating existing => some existing
  | .adopting winner => some winner
  | .lookup | .invalidateGet _ | .invalidateDelete _ | .building | .committing _ | .losing _ => none

/-- The next step takes up what is stored. -/
def reads (phase : Recovery) (world : Circumstances) (current : StoredManifest) : Prop :=
  match phase with
  | .lookup | .renewLookup _ | .losing _ => world.delivery = .answered
  | .renewGet existing =>
      world.delivery = .answered ∧ current.held.manifest.manifestSame existing.manifest = false
  | .renewPut _ _ etag => world.delivery = .answered ∧ current.etag = etag
  | _ => False

/-- The next step stores a renewal over what is stored. -/
def replaces (phase : Recovery) (world : Circumstances) (current : StoredManifest) : Prop :=
  match phase with
  | .renewPut _ _ etag => world.delivery ≠ .refused ∧ current.etag = etag
  | _ => False

/-- The next step removes what is stored, as part of the recovery's own invalidation. -/
def withdraws : Recovery → Bool
  | .invalidateDelete _ => true
  | _ => false

end Recovery

def Progress.carried : Progress → Option Held
  | .continues phase => phase.carried
  | .returns held => some held
  | .fails => none

/-- What one step of a recovery makes of the repository. -/
inductive Moves (world : Circumstances) (r : Repository) (phase : Recovery) : Repository → Prop
  | kept : Moves world r phase r
  | committed (m : CatalogPublicationManifest) :
      r.stored = none →
        Moves world r phase
          { stored := some { held := { manifest := m, commit := r.commits }, etag := r.puts },
            puts := r.puts + 1, commits := r.commits + 1 }
  | renewed (current : StoredManifest) (existing : Held) (etag : Nat)
      (renewed : { m : CatalogPublicationManifest // existing.manifest.unchanged = m.unchanged }) :
      r.stored = some current → phase = .renewPut existing renewed etag →
        phase.replaces world current →
          Moves world r phase
            { stored := some { held := { manifest := renewed.val, commit := current.held.commit },
                               etag := r.puts },
              puts := r.puts + 1, commits := r.commits }
  | removed : phase.withdraws = true → Moves world r phase { r with stored := none }

/-- Where a manifest that the recovery goes on holding comes from. -/
inductive Taken (world : Circumstances) (r : Repository) (phase : Recovery) (after : Repository)
    (held : Held) : Prop
  | kept : phase.carried = some held → Taken world r phase after held
  | read (current stored : StoredManifest) :
      r.stored = some current → phase.reads world current →
        after.stored = some stored → stored.held = held →
          current.held.commit = held.commit → Taken world r phase after held
  | committed (stored : StoredManifest) :
      r.stored = none → after.stored = some stored → stored.held = held →
        held.commit = r.commits → Taken world r phase after held

section

variable (policy : CatalogSnapshotPolicy) (target : PublicationTarget) (world : Circumstances)
  (r : Repository)

theorem advance_moves (phase : Recovery) :
    Moves world r phase (advance policy target world r phase).1 := by
  cases phase with
  | renewPut existing renewed etag =>
      simp only [advance]
      split
      · rename_i answered put
        obtain ⟨current, found, matched, rfl, rfl⟩ := Repository.putIfMatch_eq_some put
        refine .renewed current existing etag renewed found rfl ⟨?_, matched⟩
        rw [answered]
        exact nofun
      · exact .kept
      · exact .kept
      · rename_i lost put
        obtain ⟨current, found, matched, rfl, rfl⟩ := Repository.putIfMatch_eq_some put
        refine .renewed current existing etag renewed found rfl ⟨?_, matched⟩
        rw [lost]
        exact nofun
      · exact .kept
  | invalidateDelete etag =>
      have deleted : Moves world r (.invalidateDelete etag) (r.deleteIfMatch etag) := by
        rcases r.deleteIfMatch_cases etag with removed | ⟨same, _⟩
        · rw [removed]
          exact .removed rfl
        · rw [same]
          exact .kept
      simp only [advance]
      split
      · exact deleted
      · exact .kept
      · exact deleted
  | committing m =>
      simp only [advance]
      split
      · rename_i put
        obtain ⟨missing, rfl⟩ := Repository.putIfNoneMatch_eq_some put
        exact .committed m missing
      · exact .kept
      · exact .kept
      · rename_i put
        obtain ⟨missing, rfl⟩ := Repository.putIfNoneMatch_eq_some put
        exact .committed m missing
      · exact .kept
  | _ =>
      simp only [advance]
      repeat' split
      all_goals exact .kept

theorem Moves.commits_le {world : Circumstances} {r after : Repository} {phase : Recovery}
    (moves : Moves world r phase after) : r.commits ≤ after.commits := by
  cases moves with
  | kept => exact Nat.le_refl _
  | committed => exact Nat.le_succ _
  | renewed => exact Nat.le_refl _
  | removed => exact Nat.le_refl _

private theorem afterRenew_carried {existing renewed held : Held}
    (carries : (afterRenew existing renewed).carried = some held) : renewed = held := by
  unfold afterRenew at carries
  split at carries
  · exact Option.some.inj carries
  · cases carries

private theorem read_current {phase : Recovery} {current : StoredManifest}
    (found : r.stored = some current) (reading : phase.reads world current) :
    Taken world r phase r current.held :=
  .read current current found reading found rfl rfl

theorem advance_taken {phase : Recovery} {after : Repository} {progress : Progress} {held : Held}
    (advanced : advance policy target world r phase = (after, progress))
    (carries : progress.carried = some held) : Taken world r phase after held := by
  cases phase with
  | lookup =>
      simp only [advance] at advanced
      split at advanced
      · rename_i answered
        split at advanced
        · cases advanced
          cases carries
        · rename_i current found
          split at advanced
          all_goals
            cases advanced
            cases carries
            exact read_current world r found answered
      · cases advanced
        cases carries
  | renewGet existing =>
      simp only [advance] at advanced
      split at advanced
      · rename_i answered
        split at advanced
        · cases advanced
          exact .kept carries
        · rename_i current found
          split at advanced
          · cases advanced
            exact .kept carries
          · rename_i other
            cases advanced
            cases afterRenew_carried carries
            exact read_current world r found ⟨answered, by simpa using other⟩
      · cases advanced
        cases carries
  | renewReference existing etag =>
      simp only [advance] at advanced
      repeat' split at advanced
      all_goals
        cases advanced
        first
        | exact .kept carries
        | cases carries
  | renewPut existing renewed etag =>
      simp only [advance] at advanced
      split at advanced
      · rename_i answered put
        obtain ⟨current, found, matched, rfl, rfl⟩ := Repository.putIfMatch_eq_some put
        cases advanced
        cases afterRenew_carried carries
        exact .read current _ found ⟨answered, matched⟩ rfl rfl rfl
      · cases advanced
        exact .kept carries
      all_goals
        cases advanced
        cases carries
  | renewLookup existing =>
      simp only [advance] at advanced
      split at advanced
      · rename_i answered
        split at advanced
        · cases advanced
          exact .kept carries
        · rename_i current found
          cases advanced
          cases afterRenew_carried carries
          exact read_current world r found answered
      · cases advanced
        cases carries
  | validating existing =>
      simp only [advance] at advanced
      split at advanced
      all_goals
        cases advanced
        first
        | exact .kept carries
        | cases carries
  | invalidateGet existing =>
      simp only [advance] at advanced
      repeat' split at advanced
      all_goals
        cases advanced
        cases carries
  | invalidateDelete etag =>
      simp only [advance] at advanced
      split at advanced
      all_goals
        cases advanced
        cases carries
  | building =>
      simp only [advance] at advanced
      repeat' split at advanced
      all_goals
        cases advanced
        cases carries
  | committing m =>
      simp only [advance] at advanced
      split at advanced
      · rename_i put
        obtain ⟨missing, rfl⟩ := Repository.putIfNoneMatch_eq_some put
        cases advanced
        cases carries
        exact .committed _ missing rfl rfl rfl
      all_goals
        cases advanced
        cases carries
  | losing m =>
      simp only [advance] at advanced
      split at advanced
      · rename_i answered
        split at advanced
        · cases advanced
          cases carries
        · rename_i current found
          split at advanced
          all_goals
            cases advanced
            cases carries
            exact read_current world r found answered
      · cases advanced
        cases carries
  | adopting winner =>
      simp only [advance] at advanced
      split at advanced
      all_goals
        cases advanced
        first
        | exact .kept carries
        | cases carries

end

/-! ## The managers -/

/-- A manifest that the manager has cached or that its pending recovery carries. -/
inductive Manager.Keeps (m : Manager) (held : Held) : Prop
  | cached : m.cached = some held → Keeps m held
  | pending (pending : PendingWarm) :
      m.pending = some pending → pending.phase.carried = some held → Keeps m held

namespace Publishers

@[simp] theorem setManager_same (s : Publishers) (manager : Nat) (value : Manager) :
    (s.setManager manager value).managers manager = value :=
  Function.update_self ..

theorem setManager_other (s : Publishers) {manager other : Nat} (value : Manager)
    (different : other ≠ manager) :
    (s.setManager manager value).managers other = s.managers other :=
  Function.update_of_ne different ..

/-- What holds of the manager that was set and of every other manager holds of all. -/
theorem setManager_managers (Holds : Nat → Manager → Prop) {s : Publishers} {manager : Nat}
    {value : Manager} (set : Holds manager value)
    (others : ∀ other : Nat, other ≠ manager → Holds other (s.managers other)) (other : Nat) :
    Holds other ((s.setManager manager value).managers other) := by
  by_cases same : other = manager
  · cases same
    rw [setManager_same]
    exact set
  · rw [setManager_other s value same]
    exact others other same

theorem setManager_field {Field : Type} (field : Manager → Field) {s : Publishers} {manager : Nat}
    {value : Manager} (same : field value = field (s.managers manager)) (other : Nat) :
    field ((s.setManager manager value).managers other) = field (s.managers other) := by
  refine setManager_managers (fun other m => field m = field (s.managers other))
    same (fun _ _ => rfl) other

section Warm

variable (policy : CatalogSnapshotPolicy) (s : Publishers) (manager : Nat) (now : Int)

theorem warm_repository : (s.warm policy manager now).repository = s.repository := by
  unfold warm
  dsimp only
  repeat' split
  all_goals rfl

theorem warm_invalidations : (s.warm policy manager now).invalidations = s.invalidations := by
  unfold warm
  dsimp only
  repeat' split
  all_goals rfl

theorem warm_keeps {other : Nat} {held : Held}
    (keeps : ((s.warm policy manager now).managers other).Keeps held) :
    (s.managers other).Keeps held := by
  revert keeps
  unfold warm
  dsimp only
  split
  · exact id
  split
  · rename_i active found
    refine setManager_managers (fun other m => m.Keeps held → (s.managers other).Keeps held)
      (fun keeps => ?_) (fun _ _ => id) other
    cases keeps with
    | cached cached => exact .cached cached
    | pending _ joined carries =>
        cases joined
        exact .pending active found carries
  · refine setManager_managers (fun other m => m.Keeps held → (s.managers other).Keeps held)
      (fun keeps => ?_) (fun _ _ => id) other
    cases keeps with
    | cached cached => exact .cached cached
    | pending _ started carries =>
        cases started
        cases carries

theorem warm_returned {entry : Returned}
    (member : entry ∈ (s.warm policy manager now).returned) :
    entry ∈ s.returned ∨ ((s.managers entry.manager).cached = some entry.held ∧
      entry.floor = (s.managers entry.manager).floor) := by
  unfold warm at member
  dsimp only at member
  split at member
  · rename_i held usable
    rcases List.mem_append.mp member with before | last
    · exact .inl before
    · cases List.mem_singleton.mp last
      exact .inr ⟨(Option.filter_eq_some_iff.mp usable).1, rfl⟩
  · split at member
    · exact .inl member
    · exact .inl member

theorem warm_floor (other : Nat) :
    ((s.warm policy manager now).managers other).floor = (s.managers other).floor := by
  unfold warm
  dsimp only
  split
  · rfl
  split
  · refine setManager_field Manager.floor ?_ other
    rfl
  · refine setManager_field Manager.floor ?_ other
    rfl

/-- A call waits with the floor of its manager, or it waited before. -/
theorem warm_callers {other : Nat} {pending : PendingWarm} {floor : Nat}
    (found : ((s.warm policy manager now).managers other).pending = some pending)
    (caller : floor ∈ pending.callers) :
    floor = (s.managers other).floor ∨
      ∃ before : PendingWarm, (s.managers other).pending = some before ∧
        floor ∈ before.callers := by
  revert found
  unfold warm
  dsimp only
  split
  · exact fun found => .inr ⟨pending, found, caller⟩
  split
  · rename_i active joined
    refine setManager_managers (fun other m => m.pending = some pending →
        floor = (s.managers other).floor ∨ ∃ before : PendingWarm,
          (s.managers other).pending = some before ∧ floor ∈ before.callers)
      (fun found => ?_) (fun _ _ found => .inr ⟨pending, found, caller⟩) other
    cases found
    rcases List.mem_append.mp caller with before | last
    · exact .inr ⟨active, joined, before⟩
    · exact .inl (List.mem_singleton.mp last)
  · refine setManager_managers (fun other m => m.pending = some pending →
        floor = (s.managers other).floor ∨ ∃ before : PendingWarm,
          (s.managers other).pending = some before ∧ floor ∈ before.callers)
      (fun found => ?_) (fun _ _ found => .inr ⟨pending, found, caller⟩) other
    cases found
    exact .inl (List.mem_singleton.mp caller)

end Warm

section Settle

variable (s : Publishers) (manager : Nat) (pending : PendingWarm) (progress : Progress)

theorem settle_repository : (s.settle manager pending progress).repository = s.repository := by
  cases progress <;> rfl

theorem settle_invalidations :
    (s.settle manager pending progress).invalidations = s.invalidations := by
  cases progress <;> rfl

theorem settle_keeps {other : Nat} {held : Held}
    (keeps : ((s.settle manager pending progress).managers other).Keeps held) :
    (s.managers other).Keeps held ∨ (other = manager ∧ progress.carried = some held) := by
  revert keeps
  cases progress with
  | continues phase =>
      refine setManager_managers (fun other m => m.Keeps held → (s.managers other).Keeps held
          ∨ (other = manager ∧ (Progress.continues phase).carried = some held))
        (fun keeps => ?_) (fun _ _ => .inl) other
      cases keeps with
      | cached cached => exact .inl (.cached cached)
      | pending _ set carries =>
          cases set
          exact .inr ⟨rfl, carries⟩
  | returns returned =>
      refine setManager_managers (fun other m => m.Keeps held → (s.managers other).Keeps held
          ∨ (other = manager ∧ (Progress.returns returned).carried = some held))
        (fun keeps => ?_) (fun _ _ => .inl) other
      cases keeps with
      | cached cached => exact .inr ⟨rfl, cached⟩
      | pending _ set _ => cases set
  | fails =>
      refine setManager_managers (fun other m => m.Keeps held → (s.managers other).Keeps held
          ∨ (other = manager ∧ Progress.fails.carried = some held))
        (fun keeps => ?_) (fun _ _ => .inl) other
      cases keeps with
      | cached cached => exact .inl (.cached cached)
      | pending _ set _ => cases set

theorem settle_returned {entry : Returned}
    (member : entry ∈ (s.settle manager pending progress).returned) :
    entry ∈ s.returned ∨ (entry.manager = manager ∧ entry.floor ∈ pending.callers ∧
      progress.carried = some entry.held) := by
  cases progress with
  | continues phase => exact .inl member
  | returns held =>
      rcases List.mem_append.mp member with before | added
      · exact .inl before
      · obtain ⟨floor, caller, rfl⟩ := List.mem_map.mp added
        exact .inr ⟨rfl, caller, rfl⟩
  | fails => exact .inl member

theorem settle_floor (other : Nat) :
    ((s.settle manager pending progress).managers other).floor = (s.managers other).floor := by
  cases progress with
  | _ =>
      refine setManager_field Manager.floor ?_ other
      rfl

theorem settle_callers (standing : (s.managers manager).pending = some pending) {other : Nat}
    {waiting : PendingWarm} {floor : Nat}
    (found : ((s.settle manager pending progress).managers other).pending = some waiting)
    (caller : floor ∈ waiting.callers) :
    ∃ before : PendingWarm, (s.managers other).pending = some before ∧
      floor ∈ before.callers := by
  revert found
  cases progress with
  | continues phase =>
      refine setManager_managers (fun other m => m.pending = some waiting →
          ∃ before : PendingWarm, (s.managers other).pending = some before ∧
            floor ∈ before.callers)
        (fun found => ?_) (fun _ _ found => ⟨waiting, found, caller⟩) other
      cases found
      exact ⟨pending, standing, caller⟩
  | _ =>
      refine setManager_managers (fun other m => m.pending = some waiting →
          ∃ before : PendingWarm, (s.managers other).pending = some before ∧
            floor ∈ before.callers)
        (fun found => ?_) (fun _ _ found => ⟨waiting, found, caller⟩) other
      cases found

end Settle

theorem forget_keeps (s : Publishers) {manager other : Nat} {held : Held}
    (keeps : ((s.forget manager).managers other).Keeps held) :
    (s.managers other).Keeps held := by
  revert keeps
  refine setManager_managers (fun other m => m.Keeps held → (s.managers other).Keeps held)
    (fun keeps => ?_) (fun _ _ => id) other
  cases keeps with
  | cached cached => cases cached
  | pending _ found carries => exact .pending _ found carries

theorem forget_floor (s : Publishers) (manager other : Nat) :
    ((s.forget manager).managers other).floor = (s.managers other).floor := by
  refine setManager_field Manager.floor ?_ other
  rfl

theorem forget_pending (s : Publishers) (manager other : Nat) :
    ((s.forget manager).managers other).pending = (s.managers other).pending := by
  refine setManager_field Manager.pending ?_ other
  rfl

/-- What the manager keeps once its cache is dropped. -/
theorem forget_keeps_same (s : Publishers) {manager : Nat} {held : Held}
    (keeps : ((s.forget manager).managers manager).Keeps held) :
    ∃ pending : PendingWarm, (s.managers manager).pending = some pending ∧
      pending.phase.carried = some held := by
  unfold forget at keeps
  rw [setManager_same] at keeps
  cases keeps with
  | cached cached => cases cached
  | pending pending found carries => exact ⟨pending, found, carries⟩

end Publishers

end VgiWorker.Catalog
