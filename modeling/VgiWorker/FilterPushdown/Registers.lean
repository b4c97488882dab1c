import VgiWorker.Data.LastWriter
import VgiWorker.FilterPushdown.DeserializeProperties
import VgiWorker.FilterPushdown.Evaluate

/-!
# A filter set as last-writer-wins registers

Each predicate id is a register: its revision, with the live predicate or a
tombstone. An accepted delta writes its updates to the registers.
-/

set_option autoImplicit false

namespace VgiWorker.FilterPushdown

open VgiWorker.Js VgiWorker.Arrow VgiWorker.LastWriter FilterParser

abbrev FilterRegisters := Registers Text Nat (Option FilterPredicate)

def FilterParser.Update.toWrite (update : FilterParser.Update) : Write Text Nat (Option FilterPredicate) :=
  ⟨update.id, update.revision, update.predicate⟩

namespace PushdownFilters

def find? (filters : PushdownFilters) (id : Text) : Option FilterPredicate :=
  filters.predicates.find? fun predicate => predicate.id == id

def registers (filters : PushdownFilters) : FilterRegisters := fun id =>
  (filters.revisions.get? id).map fun revision => (revision, filters.find? id)

/-- Ids are distinct and a live predicate stands at its recorded revision. -/
structure Coherent (filters : PushdownFilters) : Prop where
  nodup : (filters.predicates.map (·.id)).Nodup
  current : ∀ predicate ∈ filters.predicates,
    filters.revisions.get? predicate.id = some predicate.revision

end PushdownFilters

theorem isStale_iff (revisions : OrderedMap Text Nat) (id : Text) (revision : Nat) :
    isStale revisions id revision = true ↔
      ∃ current, revisions.get? id = some current ∧ revision ≤ current := by
  unfold isStale
  cases found : revisions.get? id with
  | none => simp
  | some current => simp

theorem isStale_iff_stale (filters : PushdownFilters) (id : Text) (revision : Nat) :
    isStale filters.revisions id revision = true ↔ Stale (filters.registers id) revision := by
  rw [isStale_iff]
  unfold PushdownFilters.registers
  cases filters.revisions.get? id with
  | none => simp
  | some current => simp

/-- The filters of an accepted snapshot are coherent and every id stands at revision 0. -/
theorem snapshot_coherent (batch : Batch) (options : DeserializeFilterOptions)
    (filters : PushdownFilters) (success : deserializeFilters batch options = .ok filters) :
    filters.Coherent ∧ ∀ id ∈ filters.revisions.keys, utf8Length id ≤ maxIdBytes := by
  obtain ⟨parser, _, read⟩ := deserializeFilters_ok batch options filters success
  obtain ⟨nodup, each, revisions, _⟩ := snapshot_ok parser filters read
  have entries : filters.revisions.entries =
      filters.predicates.map fun predicate => (predicate.id, 0) := by
    rw [revisions, OrderedMap.entries_ofEntries]
    rw [List.map_map]
    exact nodup
  refine ⟨⟨nodup, fun predicate member => ?_⟩, fun id member => ?_⟩
  · rw [← OrderedMap.mem_entries_iff, entries, (each predicate member).1]
    exact List.mem_map_of_mem member
  · rw [OrderedMap.keys, entries, List.map_map] at member
    obtain ⟨predicate, predicateMem, rfl⟩ := List.mem_map.mp member
    exact (each predicate predicateMem).2.1

/-! ## The live map while updates are applied -/

/-- The registers of a live map with its revisions. -/
def liveRegisters (live : OrderedMap Text FilterPredicate) (revisions : OrderedMap Text Nat) :
    FilterRegisters := fun id =>
  (revisions.get? id).map fun revision => (revision, live.get? id)

/-- Each live predicate is filed under its id and stands at its recorded revision. -/
def LiveCoherent (live : OrderedMap Text FilterPredicate) (revisions : OrderedMap Text Nat) :
    Prop :=
  ∀ id predicate, live.get? id = some predicate →
    predicate.id = id ∧ revisions.get? id = some predicate.revision

private theorem liveCoherent_apply (live : OrderedMap Text FilterPredicate)
    (revisions : OrderedMap Text Nat) (update : Update) (coherent : LiveCoherent live revisions)
    (updateCoherent : update.IsCoherent) :
    LiveCoherent (applyToLive live update) (applyRevision revisions update) := by
  intro id predicate found
  unfold applyToLive at found
  unfold applyRevision
  rw [OrderedMap.get?_set]
  cases installed : update.predicate with
  | some replacement =>
      rw [installed] at found
      simp only [OrderedMap.get?_set] at found
      by_cases same : update.id = id
      · rw [if_pos same] at found ⊢
        cases found
        obtain ⟨sameId, sameRevision, _⟩ := updateCoherent predicate installed
        exact ⟨sameId.trans same, by rw [sameRevision]⟩
      · rw [if_neg same] at found ⊢
        exact coherent id predicate found
  | none =>
      rw [installed] at found
      simp only [OrderedMap.get?_delete] at found
      by_cases same : update.id = id
      · rw [if_pos same] at found
        cases found
      · rw [if_neg same] at found ⊢
        exact coherent id predicate found

private theorem liveRegisters_apply (live : OrderedMap Text FilterPredicate)
    (revisions : OrderedMap Text Nat) (update : Update)
    (fresh : isStale revisions update.id update.revision = false) :
    liveRegisters (applyToLive live update) (applyRevision revisions update) =
      write (liveRegisters live revisions) update.toWrite := by
  have notStale : ¬Stale (liveRegisters live revisions update.id) update.revision := by
    intro stale
    have isTrue : isStale revisions update.id update.revision = true := by
      rw [isStale_iff]
      obtain ⟨held, found, bound⟩ := stale
      unfold liveRegisters at found
      cases current : revisions.get? update.id with
      | none =>
          rw [current] at found
          cases found
      | some revision =>
          rw [current] at found
          cases found
          exact ⟨revision, rfl, bound⟩
    rw [fresh] at isTrue
    cases isTrue
  funext id
  by_cases same : update.id = id
  · subst same
    have written := write_apply_fresh (liveRegisters live revisions) update.toWrite notStale
    change write _ update.toWrite update.id = _ at written
    rw [written]
    unfold liveRegisters applyRevision applyToLive
    cases installed : update.predicate with
    | some replacement => simp [OrderedMap.get?_set, Update.toWrite, installed]
    | none => simp [OrderedMap.get?_set, OrderedMap.get?_delete, Update.toWrite, installed]
  · rw [write_apply_ne _ update.toWrite id same]
    unfold liveRegisters applyRevision applyToLive
    cases installed : update.predicate with
    | some replacement => simp [OrderedMap.get?_set, same]
    | none => simp [OrderedMap.get?_set, OrderedMap.get?_delete, same]

private theorem isStale_applyRevision (revisions : OrderedMap Text Nat) (update : Update)
    (id : Text) (revision : Nat) (different : update.id ≠ id) :
    isStale (applyRevision revisions update) id revision = isStale revisions id revision := by
  unfold isStale applyRevision
  rw [OrderedMap.get?_set, if_neg different]

private theorem apply_updates (updates : List Update) (live : OrderedMap Text FilterPredicate)
    (revisions : OrderedMap Text Nat) (coherent : LiveCoherent live revisions)
    (nodup : (updates.map (·.id)).Nodup)
    (each : ∀ update ∈ updates, update.IsCoherent ∧
      isStale revisions update.id update.revision = false) :
    LiveCoherent (updates.foldl applyToLive live) (updates.foldl applyRevision revisions) ∧
      liveRegisters (updates.foldl applyToLive live) (updates.foldl applyRevision revisions) =
        writeAll (liveRegisters live revisions) (updates.map Update.toWrite) := by
  induction updates generalizing live revisions with
  | nil => exact ⟨coherent, rfl⟩
  | cons update rest ih =>
      rw [List.map_cons, List.nodup_cons] at nodup
      obtain ⟨updateCoherent, fresh⟩ := each update List.mem_cons_self
      have restEach : ∀ other ∈ rest, other.IsCoherent ∧
          isStale (applyRevision revisions update) other.id other.revision = false := by
        intro other member
        obtain ⟨otherCoherent, otherFresh⟩ := each other (List.mem_cons_of_mem _ member)
        have different : update.id ≠ other.id := fun same =>
          nodup.1 (same ▸ List.mem_map_of_mem (f := fun update : Update => update.id) member)
        exact ⟨otherCoherent, by rw [isStale_applyRevision _ _ _ _ different]; exact otherFresh⟩
      obtain ⟨finalCoherent, finalRegisters⟩ := ih _ _
        (liveCoherent_apply live revisions update coherent updateCoherent) nodup.2 restEach
      refine ⟨finalCoherent, ?_⟩
      rw [List.foldl_cons, List.foldl_cons, finalRegisters,
        liveRegisters_apply live revisions update fresh]
      rfl

/-! ## From a live map back to a filter set -/

private theorem find?_map_snd (entries : List (Text × FilterPredicate))
    (keyed : ∀ entry ∈ entries, entry.2.id = entry.1) (id : Text) :
    (entries.map Prod.snd).find? (fun predicate => predicate.id == id) =
      lookupEntry entries id := by
  induction entries with
  | nil => rfl
  | cons entry rest ih =>
      have first := keyed entry List.mem_cons_self
      have others := ih fun other member => keyed other (List.mem_cons_of_mem _ member)
      by_cases same : entry.1 = id
      · simp [lookupEntry, first, same]
      · simp [lookupEntry, first, same, others]

private theorem map_id_snd (entries : List (Text × FilterPredicate))
    (keyed : ∀ entry ∈ entries, entry.2.id = entry.1) :
    (entries.map Prod.snd).map (·.id) = entries.map Prod.fst := by
  rw [List.map_map]
  exact List.map_congr_left keyed

private theorem keyed_of_coherent (live : OrderedMap Text FilterPredicate)
    (revisions : OrderedMap Text Nat) (coherent : LiveCoherent live revisions) :
    ∀ entry ∈ live.entries, entry.2.id = entry.1 := fun entry member =>
  (coherent entry.1 entry.2 ((OrderedMap.mem_entries_iff live _ _).mp member)).1

/-- The live map `delta` starts from. -/
def liveOf (filters : PushdownFilters) : OrderedMap Text FilterPredicate :=
  .ofEntries (filters.predicates.map fun predicate => (predicate.id, predicate))

theorem entries_liveOf (filters : PushdownFilters) (coherent : filters.Coherent) :
    (liveOf filters).entries = filters.predicates.map fun predicate => (predicate.id, predicate) := by
  apply OrderedMap.entries_ofEntries
  rw [List.map_map]
  exact coherent.nodup

private theorem values_liveOf (filters : PushdownFilters) (coherent : filters.Coherent) :
    (liveOf filters).values = filters.predicates := by
  rw [OrderedMap.values, entries_liveOf filters coherent, List.map_map]
  exact List.map_id filters.predicates

theorem get?_liveOf (filters : PushdownFilters) (coherent : filters.Coherent) (id : Text) :
    (liveOf filters).get? id = filters.find? id := by
  rw [OrderedMap.get?, entries_liveOf filters coherent, PushdownFilters.find?, ← find?_map_snd]
  · rw [List.map_map]
    exact congrArg _ (List.map_id filters.predicates)
  · intro entry member
    obtain ⟨predicate, _, rfl⟩ := List.mem_map.mp member
    rfl

private theorem liveCoherent_liveOf (filters : PushdownFilters) (coherent : filters.Coherent) :
    LiveCoherent (liveOf filters) filters.revisions := by
  intro id predicate found
  rw [get?_liveOf filters coherent] at found
  have sameId : predicate.id = id := by simpa using List.find?_some found
  exact ⟨sameId, sameId ▸ coherent.current predicate (List.mem_of_find?_eq_some found)⟩

private theorem coherent_of_live (filters : PushdownFilters)
    (live : OrderedMap Text FilterPredicate) (coherent : LiveCoherent live filters.revisions)
    (predicates : filters.predicates = live.values) :
    filters.Coherent ∧ filters.registers = liveRegisters live filters.revisions := by
  have keyed := keyed_of_coherent live filters.revisions coherent
  refine ⟨⟨?_, ?_⟩, ?_⟩
  · rw [predicates, OrderedMap.values, map_id_snd live.entries keyed]
    exact live.nodup
  · intro predicate member
    rw [predicates] at member
    obtain ⟨entry, entryMem, rfl⟩ := List.mem_map.mp member
    have found := (OrderedMap.mem_entries_iff live entry.1 entry.2).mp entryMem
    rw [keyed entry entryMem]
    exact (coherent entry.1 entry.2 found).2
  · funext id
    unfold PushdownFilters.registers liveRegisters PushdownFilters.find?
    rw [predicates, OrderedMap.values, find?_map_snd live.entries keyed]
    rfl

/-- Applying the fresh updates of a delta keeps the filter set coherent and writes them
to its registers. -/
theorem applyUpdates_registers (parser : FilterParser) (prior : PushdownFilters)
    (updates : List Update) (coherent : prior.Coherent) (nodup : (updates.map (·.id)).Nodup)
    (each : ∀ update ∈ updates, FreshUpdate prior [] update) :
    (parser.applyUpdates prior updates).Coherent ∧
      (parser.applyUpdates prior updates).registers =
        writeAll prior.registers (updates.map Update.toWrite) := by
  have start : prior.registers = liveRegisters (liveOf prior) prior.revisions := by
    funext id
    unfold PushdownFilters.registers liveRegisters
    rw [get?_liveOf prior coherent]
  obtain ⟨finalCoherent, finalRegisters⟩ := apply_updates updates (liveOf prior) prior.revisions
    (liveCoherent_liveOf prior coherent) nodup
    fun update member => ⟨(each update member).coherent, (each update member).fresh⟩
  obtain ⟨resultCoherent, resultRegisters⟩ :=
    coherent_of_live (parser.applyUpdates prior updates) _ finalCoherent rfl
  refine ⟨resultCoherent, ?_⟩
  rw [resultRegisters, start, ← finalRegisters]
  rfl

/-- With no fresh update the filter set stays as it was. -/
theorem applyUpdates_nil (parser : FilterParser) (prior : PushdownFilters)
    (coherent : prior.Coherent) :
    (parser.applyUpdates prior []).predicates = prior.predicates ∧
      (parser.applyUpdates prior []).revisions = prior.revisions :=
  ⟨values_liveOf prior coherent, rfl⟩

/-! ## Predicates by id -/

theorem filterMap_find? (filters : PushdownFilters) (predicates : List FilterPredicate)
    (found : ∀ predicate ∈ predicates, filters.find? predicate.id = some predicate) :
    (predicates.map (·.id)).filterMap filters.find? = predicates := by
  induction predicates with
  | nil => rfl
  | cons predicate rest ih =>
      rw [List.map_cons, List.filterMap_cons_some (found predicate List.mem_cons_self),
        ih fun other member => found other (List.mem_cons_of_mem _ member)]

theorem find?_of_mem (filters : PushdownFilters) (coherent : filters.Coherent)
    (predicate : FilterPredicate) (member : predicate ∈ filters.predicates) :
    filters.find? predicate.id = some predicate := by
  rw [← get?_liveOf filters coherent, ← OrderedMap.mem_entries_iff, entries_liveOf filters coherent]
  exact List.mem_map_of_mem (f := fun predicate : FilterPredicate => (predicate.id, predicate)) member

theorem mem_of_find? (filters : PushdownFilters) (id : Text) (predicate : FilterPredicate)
    (found : filters.find? id = some predicate) :
    predicate ∈ filters.predicates ∧ predicate.id = id :=
  ⟨List.mem_of_find?_eq_some found, by simpa using List.find?_some found⟩

/-- A coherent filter set holds exactly the predicates its registers hold. -/
theorem mem_predicates_iff (filters : PushdownFilters) (coherent : filters.Coherent)
    (predicate : FilterPredicate) :
    predicate ∈ filters.predicates ↔
      filters.registers predicate.id = some (predicate.revision, some predicate) := by
  unfold PushdownFilters.registers
  constructor
  · intro member
    rw [coherent.current predicate member, find?_of_mem filters coherent predicate member]
    rfl
  · intro held
    obtain ⟨revision, _, pair⟩ := Option.map_eq_some_iff.mp held
    exact (mem_of_find? filters predicate.id predicate (congrArg Prod.snd pair)).1

theorem withPredicateOrder_eq (filters : PushdownFilters) (order : List Text) :
    filters.withPredicateOrder order =
      if filters.predicates.map (·.id) = order then .ok filters
      else if order.length ≠ (liveOf filters).entries.length ∨ ¬order.Nodup ∨
          ¬order.all (liveOf filters).has then
        throwV2 (text "recorded predicate order does not match the replayed filter state")
      else .ok { filters with predicates := order.filterMap (liveOf filters).get? } := rfl

/-- Arranging the predicates keeps them, and everything else. -/
theorem withPredicateOrder_ok (filters : PushdownFilters) (order : List Text)
    (arranged : PushdownFilters) (coherent : filters.Coherent)
    (success : filters.withPredicateOrder order = .ok arranged) :
    arranged.predicates.Perm filters.predicates ∧
      arranged = { filters with predicates := arranged.predicates } := by
  rw [withPredicateOrder_eq] at success
  split at success
  · cases success
    exact ⟨List.Perm.refl _, rfl⟩
  · split at success
    · cases success
    · rename_i accepted
      cases success
      obtain ⟨sameLength, nodup, known⟩ : order.length = (liveOf filters).entries.length ∧
          order.Nodup ∧ order.all (liveOf filters).has = true := by
        simpa only [not_or, not_not] using accepted
      have ids : order ⊆ filters.predicates.map (·.id) := by
        intro id member
        have has := List.all_eq_true.mp known id member
        rw [OrderedMap.has, get?_liveOf filters coherent] at has
        obtain ⟨predicate, found⟩ := Option.isSome_iff_exists.mp has
        obtain ⟨predicateMem, sameId⟩ := mem_of_find? filters id predicate found
        exact List.mem_map.mpr ⟨predicate, predicateMem, sameId⟩
      have perm : order.Perm (filters.predicates.map (·.id)) := by
        refine (nodup.subperm ids).perm_of_length_le (le_of_eq ?_)
        rw [sameLength, entries_liveOf filters coherent, List.length_map, List.length_map]
      refine ⟨?_, rfl⟩
      have byId : (liveOf filters).get? = filters.find? := funext (get?_liveOf filters coherent)
      have itself : (filters.predicates.map (·.id)).filterMap filters.find? = filters.predicates :=
        filterMap_find? filters filters.predicates fun predicate member =>
          find?_of_mem filters coherent predicate member
      have arrangedPerm := perm.filterMap filters.find?
      rw [itself] at arrangedPerm
      rwa [← byId] at arrangedPerm

theorem coherent_of_perm (filters arranged : PushdownFilters) (coherent : filters.Coherent)
    (perm : arranged.predicates.Perm filters.predicates)
    (sameRevisions : arranged.revisions = filters.revisions) : arranged.Coherent where
  nodup := (perm.map (·.id)).nodup_iff.mpr coherent.nodup
  current := fun predicate member => by
    rw [sameRevisions]
    exact coherent.current predicate (perm.subset member)

end VgiWorker.FilterPushdown
