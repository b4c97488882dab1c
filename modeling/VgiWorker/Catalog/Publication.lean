import Mathlib.Logic.Function.Basic
import VgiWorker.Js.Number

/-!
# Catalog publications

The snapshot managers of `publication.ts` over one conditional-write repository,
for one publication key. Every await of a manager ends a step; what the world
answers at a step (the clock, the signer, the builder, the readback) is arbitrary.
-/

set_option autoImplicit false

namespace VgiWorker.Catalog

open Js

/-! ## Manifests -/

structure CatalogPublicationManifest where
  formatVersion : Int
  manifestId : Text
  key : Text
  protocolName : Text
  protocolVersion : Text
  contractHash : Text
  codecRevision : Int
  catalogVersion : Int
  etag : Text
  sha256 : Text
  rawSize : Int
  storedSize : Int
  url : Text
  objectId : Option Text
  expiresAt : Option Int
  retainUntil : Option Int
  stable : Bool
  validated : Bool
  deriving DecidableEq

/-- What `assertRenewedPublication` compares: all but the identifier, the URL and its expiry. -/
structure ImmutableFields where
  key : Text
  formatVersion : Int
  protocolName : Text
  protocolVersion : Text
  contractHash : Text
  codecRevision : Int
  catalogVersion : Int
  etag : Text
  sha256 : Text
  rawSize : Int
  storedSize : Int
  objectId : Option Text
  retainUntil : Option Int
  stable : Bool
  validated : Bool
  deriving DecidableEq

namespace CatalogPublicationManifest

def unchanged (m : CatalogPublicationManifest) : ImmutableFields :=
  { key := m.key, formatVersion := m.formatVersion, protocolName := m.protocolName,
    protocolVersion := m.protocolVersion, contractHash := m.contractHash,
    codecRevision := m.codecRevision, catalogVersion := m.catalogVersion, etag := m.etag,
    sha256 := m.sha256, rawSize := m.rawSize, storedSize := m.storedSize,
    objectId := m.objectId, retainUntil := m.retainUntil, stable := m.stable,
    validated := m.validated }

def manifestSame (a b : CatalogPublicationManifest) : Bool :=
  a.manifestId = b.manifestId

end CatalogPublicationManifest

/-- What all managers of the key agree on: it is a digest of the first six. -/
structure PublicationTarget where
  key : Text
  protocolName : Text
  protocolVersion : Text
  contractHash : Text
  catalogVersion : Int
  compression : Text
  /-- The repository has a `renewReference`. -/
  renews : Bool

structure CatalogSnapshotPolicy where
  maxRawBytes : Option Int
  maxStoredBytes : Option Int
  referenceGraceMs : Option Int

def defaultMax : Int :=
  64 * 1024 * 1024

namespace CatalogSnapshotPolicy

def rawLimit (policy : CatalogSnapshotPolicy) : Int :=
  policy.maxRawBytes.getD defaultMax

def storedLimit (policy : CatalogSnapshotPolicy) : Int :=
  policy.maxStoredBytes.getD defaultMax

def usable (policy : CatalogSnapshotPolicy) (now : Int) (m : CatalogPublicationManifest) : Bool :=
  let deadline := now + policy.referenceGraceMs.getD 60000
  (m.stable || m.expiresAt.isSome)
    && m.expiresAt.all (fun expiresAt => deadline < expiresAt)
    && m.retainUntil.all (fun retainUntil => deadline < retainUntil)

def isSha256 (digest : Text) : Bool :=
  digest.length = 64
    && digest.all (fun unit => (0x30 ≤ unit && unit ≤ 0x39) || (0x61 ≤ unit && unit ≤ 0x66))

/-- A positive safe integer within the limit. -/
def boundedSize (size limit : Int) : Bool :=
  0 < size && size ≤ 2 ^ 53 - 1 && size ≤ limit

/-- `validate`; `readback` is whether the published object reads back as this publication. -/
def validate (policy : CatalogSnapshotPolicy) (target : PublicationTarget) (now : Int)
    (readback : Bool) (m : CatalogPublicationManifest) : Bool :=
  m.formatVersion = 1 && m.manifestId ≠ [] && m.key = target.key
    && m.protocolName = target.protocolName && m.protocolVersion = target.protocolVersion
    && m.contractHash = target.contractHash && m.codecRevision = 1
    && m.catalogVersion = target.catalogVersion && m.validated
    && isSha256 m.sha256
    && boundedSize m.rawSize policy.rawLimit && boundedSize m.storedSize policy.storedLimit
    && policy.usable now m && readback

end CatalogSnapshotPolicy

/-! ## The world at one step -/

/-- A call of the object store: answered, failed without effect, or failed after its write. -/
inductive Delivery where
  | answered
  | refused
  | lost
  deriving DecidableEq

/-- A serving URL signed anew, with the identifier drawn for it. -/
structure SignedReference where
  manifestId : Text
  url : Text
  expiresAt : Option Int
  stable : Option Bool
  deriving DecidableEq

/-- The response of `build`, its digest and what its upload gives. -/
structure BuiltSnapshot where
  notModified : Bool
  catalogVersion : Int
  decodes : Bool
  etag : Option Text
  contentsDigest : Text
  manifestId : Text
  rawSize : Int
  storedSize : Int
  sha256 : Text
  url : Text
  objectId : Option Text
  expiresAt : Option Int
  retainUntil : Option Int
  stable : Bool
  deriving DecidableEq

structure Circumstances where
  now : Int
  delivery : Delivery
  readback : Bool
  /-- None where the signer fails. -/
  signed : Option SignedReference
  /-- None where the builder, the upload or its description fails. -/
  built : Option BuiltSnapshot
  deriving DecidableEq

/-- The `renewReference` of an S3 repository, for a manifest that names its object. -/
def renewReference (m : CatalogPublicationManifest) (signed : SignedReference) :
    CatalogPublicationManifest :=
  { m with manifestId := signed.manifestId, url := signed.url, expiresAt := signed.expiresAt,
           stable := signed.stable.getD false }

def supportedCompression (compression : Text) : Bool :=
  compression = text "identity" || compression = text "gzip" || compression = text "zstd"

/-- The manifest of a built snapshot; none where the attempt throws before validation. -/
def publish (policy : CatalogSnapshotPolicy) (target : PublicationTarget) (b : BuiltSnapshot) :
    Option CatalogPublicationManifest :=
  if b.notModified || b.catalogVersion ≠ target.catalogVersion || !b.decodes then none
  else if policy.rawLimit < b.rawSize then none
  else if !supportedCompression target.compression then none
  else if policy.storedLimit < b.storedSize then none
  else
    some {
      formatVersion := 1, manifestId := b.manifestId, key := target.key,
      protocolName := target.protocolName, protocolVersion := target.protocolVersion,
      contractHash := target.contractHash, codecRevision := 1,
      catalogVersion := target.catalogVersion, etag := b.etag.getD b.contentsDigest,
      sha256 := b.sha256, rawSize := b.rawSize, storedSize := b.storedSize, url := b.url,
      validated := true, objectId := b.objectId, expiresAt := b.expiresAt,
      retainUntil := b.retainUntil, stable := b.stable }

/-! ## The repository -/

/-- A manifest and the number of the commit it goes back to, which no step reads. -/
structure Held where
  manifest : CatalogPublicationManifest
  commit : Nat
  deriving DecidableEq

structure StoredManifest where
  held : Held
  etag : Nat
  deriving DecidableEq

/-- The object under the key. Every put gives a new entity tag; a renewal keeps its commit. -/
structure Repository where
  stored : Option StoredManifest
  puts : Nat
  commits : Nat
  deriving DecidableEq

namespace Repository

/-- The repository as a run finds it. -/
def holding (manifest : Option CatalogPublicationManifest) : Repository :=
  { stored := manifest.map fun m => { held := { manifest := m, commit := 0 }, etag := 0 },
    puts := 1, commits := 1 }

def putIfNoneMatch (r : Repository) (m : CatalogPublicationManifest) : Option Repository :=
  match r.stored with
  | none =>
      some { stored := some { held := { manifest := m, commit := r.commits }, etag := r.puts },
             puts := r.puts + 1, commits := r.commits + 1 }
  | some _ => none

def putIfMatch (r : Repository) (m : CatalogPublicationManifest) (etag : Nat) :
    Option (Repository × Held) :=
  match r.stored with
  | none => none
  | some current =>
      if current.etag = etag then
        let renewed : Held := { manifest := m, commit := current.held.commit }
        some ({ r with stored := some { held := renewed, etag := r.puts }, puts := r.puts + 1 },
          renewed)
      else none

def deleteIfMatch (r : Repository) (etag : Nat) : Repository :=
  match r.stored with
  | none => r
  | some current => if current.etag = etag then { r with stored := none } else r

end Repository

/-! ## `recoverOrPublish` -/

/-- Where a recovery stands: the call it awaits and what it holds meanwhile. -/
inductive Recovery where
  | lookup
  | renewGet (existing : Held)
  | renewReference (existing : Held) (etag : Nat)
  | renewPut (existing : Held)
      (renewed : { m : CatalogPublicationManifest // existing.manifest.unchanged = m.unchanged })
      (etag : Nat)
  | renewLookup (existing : Held)
  | validating (existing : Held)
  | invalidateGet (existing : Held)
  | invalidateDelete (etag : Nat)
  | building
  | committing (m : CatalogPublicationManifest)
  | losing (m : CatalogPublicationManifest)
  | adopting (winner : Held)
  deriving DecidableEq

inductive Progress where
  | continues (phase : Recovery)
  | returns (held : Held)
  | fails
  deriving DecidableEq

/-- `assertRenewedPublication` on what `renew` returned, in the `try` of the recovery. -/
def afterRenew (existing renewed : Held) : Recovery :=
  if existing.manifest.unchanged = renewed.manifest.unchanged then .validating renewed
  else .invalidateGet existing

def advance (policy : CatalogSnapshotPolicy) (target : PublicationTarget) (world : Circumstances)
    (r : Repository) : Recovery → Repository × Progress
  | .lookup =>
      if world.delivery = .answered then
        match r.stored with
        | none => (r, .continues .building)
        | some current =>
            if !policy.usable world.now current.held.manifest && target.renews then
              (r, .continues (.renewGet current.held))
            else (r, .continues (.validating current.held))
      else (r, .fails)
  | .renewGet existing =>
      if world.delivery = .answered then
        match r.stored with
        | none => (r, .continues (.validating existing))
        | some current =>
            if current.held.manifest.manifestSame existing.manifest then
              (r, .continues (.renewReference existing current.etag))
            else (r, .continues (afterRenew existing current.held))
      else (r, .continues (.invalidateGet existing))
  | .renewReference existing etag =>
      if existing.manifest.objectId.getD [] = [] then (r, .continues (.validating existing))
      else
        match world.signed with
        | none => (r, .continues (.invalidateGet existing))
        | some signed =>
            let renewed := Catalog.renewReference existing.manifest signed
            if same : existing.manifest.unchanged = renewed.unchanged then
              (r, .continues (.renewPut existing ⟨renewed, same⟩ etag))
            else (r, .continues (.invalidateGet existing))
  | .renewPut existing renewed etag =>
      match world.delivery, r.putIfMatch renewed.val etag with
      | .answered, some (after, held) => (after, .continues (afterRenew existing held))
      | .answered, none => (r, .continues (.renewLookup existing))
      | .refused, _ => (r, .continues (.invalidateGet existing))
      | .lost, some (after, _) => (after, .continues (.invalidateGet existing))
      | .lost, none => (r, .continues (.invalidateGet existing))
  | .renewLookup existing =>
      if world.delivery = .answered then
        match r.stored with
        | none => (r, .continues (.validating existing))
        | some current => (r, .continues (afterRenew existing current.held))
      else (r, .continues (.invalidateGet existing))
  | .validating existing =>
      if policy.validate target world.now world.readback existing.manifest then (r, .returns existing)
      else (r, .continues (.invalidateGet existing))
  | .invalidateGet existing =>
      if world.delivery = .answered then
        match r.stored with
        | none => (r, .continues .building)
        | some current =>
            if current.held.manifest.manifestSame existing.manifest then
              (r, .continues (.invalidateDelete current.etag))
            else (r, .continues .building)
      else (r, .fails)
  | .invalidateDelete etag =>
      match world.delivery with
      | .answered => (r.deleteIfMatch etag, .continues .building)
      | .refused => (r, .fails)
      | .lost => (r.deleteIfMatch etag, .fails)
  | .building =>
      match world.built.bind (publish policy target) with
      | none => (r, .fails)
      | some m =>
          if policy.validate target world.now world.readback m then (r, .continues (.committing m))
          else (r, .fails)
  | .committing m =>
      match world.delivery, r.putIfNoneMatch m with
      | .answered, some after => (after, .returns { manifest := m, commit := r.commits })
      | .answered, none => (r, .continues (.losing m))
      | .refused, _ => (r, .fails)
      | .lost, some after => (after, .fails)
      | .lost, none => (r, .fails)
  | .losing m =>
      if world.delivery = .answered then
        match r.stored with
        | none => (r, .fails)
        | some current =>
            if m.manifestSame current.held.manifest then (r, .returns current.held)
            else (r, .continues (.adopting current.held))
      else (r, .fails)
  | .adopting winner =>
      if policy.validate target world.now world.readback winner.manifest then (r, .returns winner)
      else (r, .fails)

/-! ## Managers -/

/-- An entry of the `pending` map: a recovery and the calls that share it. Each call
carries the floor it found, which no step reads. -/
structure PendingWarm where
  phase : Recovery
  callers : List Nat
  deriving DecidableEq

/-- A manager. `finished` numbers its recoveries; `floor` is the commit count found by
the latest of its invalidations that has resolved, which no step reads. -/
structure Manager where
  cached : Option Held
  pending : Option PendingWarm
  finished : Nat
  floor : Nat
  deriving DecidableEq

/-- Where `invalidate` stands. It first awaits the pending recovery, if there is one. -/
inductive Withdrawal where
  | waiting (pending : Option Nat)
  | lookup
  | get (expected : Held)
  | delete (etag : Nat)
  deriving DecidableEq

/-- A call of `invalidate`, with the commit count when it began, which no step reads. -/
structure Invalidation where
  manager : Nat
  begun : Nat
  phase : Withdrawal
  deriving DecidableEq

/-- A call of `warm` that returned, with the floor of its manager when it was made. -/
structure Returned where
  manager : Nat
  floor : Nat
  held : Held
  deriving DecidableEq

structure Publishers where
  repository : Repository
  managers : Nat → Manager
  invalidations : Nat → Option Invalidation
  returned : List Returned

inductive PublisherAction where
  | warm (manager : Nat) (now : Int)
  | recover (manager : Nat) (world : Circumstances)
  /-- `remember` drops the eldest manifest of a full cache. -/
  | evict (manager : Nat)
  | invalidate (call manager : Nat)
  | withdraw (call : Nat) (world : Circumstances)

namespace Publishers

def start (stored : Option CatalogPublicationManifest) : Publishers :=
  { repository := .holding stored,
    managers := fun _ => { cached := none, pending := none, finished := 0, floor := 0 },
    invalidations := fun _ => none, returned := [] }

def setManager (s : Publishers) (manager : Nat) (value : Manager) : Publishers :=
  { s with managers := Function.update s.managers manager value }

def setInvalidation (s : Publishers) (call : Nat) (value : Option Invalidation) : Publishers :=
  { s with invalidations := Function.update s.invalidations call value }

def warm (policy : CatalogSnapshotPolicy) (s : Publishers) (manager : Nat) (now : Int) :
    Publishers :=
  let m := s.managers manager
  match m.cached.filter (fun held => policy.usable now held.manifest) with
  | some held =>
      { s with returned := s.returned ++ [{ manager := manager, floor := m.floor, held := held }] }
  | none =>
      match m.pending with
      | some active =>
          s.setManager manager
            { m with pending := some { active with callers := active.callers ++ [m.floor] } }
      | none =>
          s.setManager manager
            { m with pending := some { phase := .lookup, callers := [m.floor] } }

/-- What a step of the recovery means to its manager: a manifest is remembered and returned
to every call that shares the recovery. -/
def settle (s : Publishers) (manager : Nat) (pending : PendingWarm) : Progress → Publishers
  | .continues phase =>
      s.setManager manager
        { s.managers manager with pending := some { pending with phase := phase } }
  | .returns held =>
      let after := s.setManager manager
        { s.managers manager with
          cached := some held, pending := none,
          finished := (s.managers manager).finished + 1 }
      { after with
        returned := s.returned ++
          pending.callers.map fun floor => { manager := manager, floor := floor, held := held } }
  | .fails =>
      s.setManager manager
        { s.managers manager with
          pending := none, finished := (s.managers manager).finished + 1 }

def recover (policy : CatalogSnapshotPolicy) (target : PublicationTarget) (s : Publishers)
    (manager : Nat) (world : Circumstances) : Option Publishers :=
  match (s.managers manager).pending with
  | none => none
  | some pending =>
      let advanced := advance policy target world s.repository pending.phase
      some (settle { s with repository := advanced.1 } manager pending advanced.2)

def forget (s : Publishers) (manager : Nat) : Publishers :=
  s.setManager manager { s.managers manager with cached := none }

def invalidate (s : Publishers) (call manager : Nat) : Option Publishers :=
  match s.invalidations call with
  | some _ => none
  | none =>
      let m := s.managers manager
      some (s.setInvalidation call (some {
        manager := manager, begun := s.repository.commits,
        phase := .waiting (m.pending.map fun _ => m.finished) }))

def resolve (s : Publishers) (call : Nat) (running : Invalidation) : Publishers :=
  let m := s.managers running.manager
  (s.setManager running.manager { m with floor := max m.floor running.begun }).setInvalidation
    call none

def withdraw (s : Publishers) (call : Nat) (world : Circumstances) : Option Publishers :=
  match s.invalidations call with
  | none => none
  | some running =>
      let m := s.managers running.manager
      let moves (s : Publishers) (phase : Withdrawal) :=
        s.setInvalidation call (some { running with phase := phase })
      match running.phase with
      | .waiting pending =>
          if pending.all (fun generation => generation < m.finished) then
            match m.cached with
            | some held => some (moves (s.forget running.manager) (.get held))
            | none => some (moves s .lookup)
          else none
      | .lookup =>
          if world.delivery = .answered then
            match s.repository.stored with
            | none => some ((s.forget running.manager).resolve call running)
            | some current => some (moves (s.forget running.manager) (.get current.held))
          else some (s.setInvalidation call none)
      | .get expected =>
          if world.delivery = .answered then
            match s.repository.stored with
            | none => some (s.resolve call running)
            | some current =>
                if current.held.manifest.manifestSame expected.manifest then
                  some (moves s (.delete current.etag))
                else some (s.resolve call running)
          else some (s.setInvalidation call none)
      | .delete etag =>
          let deleted := { s with repository := s.repository.deleteIfMatch etag }
          match world.delivery with
          | .answered => some (deleted.resolve call running)
          | .refused => some (s.setInvalidation call none)
          | .lost => some (deleted.setInvalidation call none)

def step (policies : Nat → CatalogSnapshotPolicy) (target : PublicationTarget) (s : Publishers) :
    PublisherAction → Option Publishers
  | .warm manager now => some (s.warm (policies manager) manager now)
  | .recover manager world => s.recover (policies manager) target manager world
  | .evict manager => some (s.forget manager)
  | .invalidate call manager => s.invalidate call manager
  | .withdraw call world => s.withdraw call world

end Publishers

end VgiWorker.Catalog
