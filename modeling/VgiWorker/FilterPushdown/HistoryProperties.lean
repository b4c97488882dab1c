import VgiWorker.FilterPushdown.History
import VgiWorker.FilterPushdown.Registers

/-!
# Replay of the dynamic-filter history

The compacted history, replayed from the init snapshot, rebuilds the live
filters of a run whose deltas read in full.
-/

set_option autoImplicit false

namespace VgiWorker.FilterPushdown

open VgiWorker.Js VgiWorker.Arrow VgiWorker.LastWriter FilterParser

/-! ## Applying a delta -/

theorem applyDelta_ok (prior : PushdownFilters) (batch : Batch) (result : PushdownFilters)
    (success : prior.applyDelta batch = .ok result) :
    ∃ parser entries updates after, FilterParser.construct batch prior.options = .ok parser ∧
      parser.context = prior.evaluationContext ∧
      parser.header "delta" "updates" = .ok entries ∧
      parser.readUpdates prior entries 0 [] 0 = .ok (updates, after) ∧
      (prior.revisions.keys ++ updates.map (·.id)).dedup.length ≤ maxPredicateIds ∧
      result = parser.applyUpdates prior updates := by
  obtain ⟨parser, constructed, success⟩ := except_bind_ok _ _ _ success
  obtain ⟨_, sameContext, success⟩ := except_bind_ok _ _ _ success
  obtain ⟨entries, headed, success⟩ := except_bind_ok _ _ _ success
  obtain ⟨⟨updates, after⟩, read, success⟩ := except_bind_ok _ _ _ success
  obtain ⟨_, within, success⟩ := except_bind_ok _ _ _ success
  cases success
  exact ⟨parser, entries, updates, after, constructed,
    not_not.mp (refuse_ok _ _ _ sameContext), headed, read, not_lt.mp (refuse_ok _ _ _ within), rfl⟩

private theorem refuse_pass (condition : Prop) [Decidable condition] (message : Text)
    (holds : ¬condition) : refuse condition message = .ok () :=
  if_neg holds

theorem applyDelta_of (prior : PushdownFilters) (batch : Batch) (parser : FilterParser)
    (entries : List Json) (updates : List Update) (after : Nat)
    (constructed : FilterParser.construct batch prior.options = .ok parser)
    (sameContext : parser.context = prior.evaluationContext)
    (headed : parser.header "delta" "updates" = .ok entries)
    (read : parser.readUpdates prior entries 0 [] 0 = .ok (updates, after))
    (within : (prior.revisions.keys ++ updates.map (·.id)).dedup.length ≤ maxPredicateIds) :
    prior.applyDelta batch = .ok (parser.applyUpdates prior updates) := by
  have unfolded : prior.applyDelta batch =
      (FilterParser.construct batch prior.options >>= fun parser => parser.delta prior) := rfl
  rw [unfolded, constructed]
  change parser.delta prior = _
  unfold delta
  simp only [refuse_pass _ _ (not_not.mpr sameContext), headed, read, except_ok_bind,
    refuse_pass _ _ (not_lt.mpr within)]

/-! ## Deltas that read in full -/

/-- Every update of a delta, the stale ones included, as the parser would read them all. -/
def fullUpdates (filters : PushdownFilters) (batch : Batch) : Except Fault (List Update) := do
  let parser ← FilterParser.construct batch filters.options
  let entries ← parser.header "delta" "updates"
  let (updates, _) ← parser.readUpdates (withoutRevisions filters) entries 0 [] 0
  .ok updates

def Update.key (update : Update) : Text :=
  revisionKey update.id (Number.decimal update.revision)

section

variable (deserializeBatch : DeserializeBatch)

/-- The parser reads every update of the delta, also the stale ones, and `JSON.parse`
reads the same ids and revisions off the document. -/
def ReadsInFull (filters : PushdownFilters) (bytes : Bytes) : Prop :=
  ∃ batch updates, decodeFilterDelta deserializeBatch bytes = .ok batch ∧
    fullUpdates filters batch = .ok updates ∧
    deltaRevisionKeys batch = .ok (updates.map Update.key)

instance (filters : PushdownFilters) (bytes : Bytes) :
    Decidable (ReadsInFull deserializeBatch filters bytes) :=
  match decoded : decodeFilterDelta deserializeBatch bytes with
  | .error _ => .isFalse fun ⟨_, _, accepted, _⟩ => by simp [decoded] at accepted
  | .ok batch =>
      match read : fullUpdates filters batch with
      | .error _ => .isFalse fun ⟨_, _, accepted, full, _⟩ => by
          rw [decoded] at accepted
          cases accepted
          simp [read] at full
      | .ok updates =>
          decidable_of_iff (deltaRevisionKeys batch = .ok (updates.map Update.key)) (by
            constructor
            · exact fun keys => ⟨batch, updates, decoded, read, keys⟩
            · rintro ⟨other, otherUpdates, accepted, full, keys⟩
              rw [decoded] at accepted
              cases accepted
              rw [read] at full
              cases full
              exact keys)

/-- The filters of one scan share their context, options and required ids. -/
structure SameScan (filters other : PushdownFilters) : Prop where
  context : other.evaluationContext = filters.evaluationContext
  options : other.options = filters.options
  requiredIds : other.requiredIds = filters.requiredIds

/-- A delta that reads in full under the scan's own evaluation context. -/
def Carried (filters : PushdownFilters) (bytes : Bytes) (updates : List Update) : Prop :=
  ∃ batch parser entries after, decodeFilterDelta deserializeBatch bytes = .ok batch ∧
    FilterParser.construct batch filters.options = .ok parser ∧
    parser.context = filters.evaluationContext ∧
    parser.header "delta" "updates" = .ok entries ∧
    parser.readUpdates (withoutRevisions filters) entries 0 [] 0 = .ok (updates, after) ∧
    deltaRevisionKeys batch = .ok (updates.map Update.key)

theorem carried_of_accepted (snapshot current result : PushdownFilters) (bytes : Bytes)
    (batch : Batch) (same : SameScan snapshot current)
    (decoded : decodeFilterDelta deserializeBatch bytes = .ok batch)
    (accepted : current.applyDelta batch = .ok result)
    (full : ReadsInFull deserializeBatch snapshot bytes) :
    ∃ updates, Carried deserializeBatch snapshot bytes updates := by
  obtain ⟨fullBatch, updates, fullDecoded, fullRead, keysRead⟩ := full
  rw [decoded] at fullDecoded
  cases fullDecoded
  obtain ⟨parser, entries, _, _, constructed, sameContext, headed, _, _, _⟩ :=
    applyDelta_ok current batch result accepted
  rw [same.options] at constructed
  unfold fullUpdates at fullRead
  rw [constructed, except_ok_bind, headed, except_ok_bind] at fullRead
  obtain ⟨⟨readUpdates, after⟩, read, final⟩ := except_bind_ok _ _ _ fullRead
  cases final
  exact ⟨updates, batch, parser, entries, after, decoded, constructed,
    sameContext.trans same.context, headed, read, keysRead⟩

private theorem toWrite_filter (filters : PushdownFilters) (updates : List Update) :
    (updates.filter (Update.isFresh filters.revisions)).map Update.toWrite =
      (updates.map Update.toWrite).filter fun update =>
        !decide (Stale (filters.registers update.id) update.revision) := by
  rw [List.filter_map]
  congr 1
  apply List.filter_congr
  intro update _
  have agree := isStale_iff_stale filters update.id update.revision
  cases stale : isStale filters.revisions update.id update.revision with
  | true =>
      have isStale := agree.mp stale
      simp [Update.isFresh, Update.toWrite, stale, isStale]
  | false =>
      have notStale : ¬Stale (filters.registers update.id) update.revision := fun isStale => by
        rw [agree.mpr isStale] at stale
        cases stale
      simp [Update.isFresh, Update.toWrite, stale, notStale]

/-- A carried delta applies to any filters of the scan while the ids stay within the
limit, and writes all of its updates to the registers. -/
theorem carried_apply (snapshot current : PushdownFilters) (bytes : Bytes)
    (updates : List Update) (carried : Carried deserializeBatch snapshot bytes updates)
    (same : SameScan snapshot current) (coherent : current.Coherent)
    (within : (current.revisions.keys ++ updates.map (·.id)).dedup.length ≤ maxPredicateIds) :
    ∃ batch result, decodeFilterDelta deserializeBatch bytes = .ok batch ∧
      current.applyDelta batch = .ok result ∧ SameScan snapshot result ∧ result.Coherent ∧
      result.registers = writeAll current.registers (updates.map Update.toWrite) := by
  obtain ⟨batch, parser, entries, after, decoded, constructed, sameContext, headed, read, _⟩ :=
    carried
  obtain ⟨lowerAfter, _, fresh⟩ := readUpdates_of_full parser snapshot current
    same.requiredIds.symm entries 0 [] 0 after updates read 0 (le_refl 0)
  obtain ⟨fullNodup, _⟩ := readUpdates_fresh parser _ entries 0 [] 0 after updates read
  obtain ⟨nodup, each⟩ := readUpdates_fresh parser current entries 0 [] 0 lowerAfter _ fresh
  have fewer : (current.revisions.keys ++
      (updates.filter (Update.isFresh current.revisions)).map (·.id)).dedup.length ≤
        maxPredicateIds := by
    refine le_trans (List.Subperm.length_le (List.nodup_dedup _ |>.subperm fun id member => ?_))
      within
    rw [List.mem_dedup, List.mem_append] at member ⊢
    exact member.imp_right fun inFresh => (List.filter_sublist.map _).subset inFresh
  have applied := applyDelta_of current batch parser entries _ lowerAfter
    (by rw [same.options]; exact constructed) (sameContext.trans same.context.symm) headed fresh fewer
  obtain ⟨resultCoherent, resultRegisters⟩ :=
    applyUpdates_registers parser current _ coherent nodup each
  refine ⟨batch, _, decoded, applied, ⟨sameContext, same.options, same.requiredIds⟩, resultCoherent,
    ?_⟩
  rw [resultRegisters, toWrite_filter, writeAll_filter_fresh]
  rw [List.map_map]
  exact fullNodup

/-! ## Compaction -/

/-- The updates of a carried delta; a delta that does not read has none. -/
def updatesOf (filters : PushdownFilters) (bytes : Bytes) : List Update :=
  match decodeFilterDelta deserializeBatch bytes >>= fullUpdates filters with
  | .ok updates => updates
  | .error _ => []

/-- The revision keys of a carried delta. -/
def keysOf (bytes : Bytes) : List Text :=
  match decodeFilterDelta deserializeBatch bytes >>= deltaRevisionKeys with
  | .ok keys => keys
  | .error _ => []

theorem updatesOf_carried (snapshot : PushdownFilters) (bytes : Bytes) (updates : List Update)
    (carried : Carried deserializeBatch snapshot bytes updates) :
    updatesOf deserializeBatch snapshot bytes = updates ∧
      keysOf deserializeBatch bytes = updates.map Update.key := by
  obtain ⟨batch, parser, entries, after, decoded, constructed, _, headed, read, keysRead⟩ := carried
  have full : fullUpdates snapshot batch = .ok updates := by
    unfold fullUpdates
    simp only [constructed, headed, read, except_ok_bind]
  unfold updatesOf keysOf
  rw [decoded, except_ok_bind, except_ok_bind, full, keysRead]
  exact ⟨rfl, rfl⟩

private theorem deleteKeys_eq (keys wanted : List Text) :
    deleteKeys keys wanted =
      (keys.any wanted.contains, wanted.filter fun key => !keys.contains key) := by
  induction keys generalizing wanted with
  | nil => simp [deleteKeys]
  | cons key rest ih =>
      rw [deleteKeys, ih]
      refine Prod.ext ?_ ?_
      · simp only [List.any_cons]
        cases present : wanted.contains key with
        | true => rfl
        | false =>
            have absent : key ∉ wanted := by simpa using present
            simp only [Bool.false_or]
            apply List.any_congr rfl
            intro other
            by_cases sameKey : other = key
            · simp [sameKey, absent]
            · simp [sameKey]
      · rw [List.filter_filter]
        apply List.filter_congr
        intro other _
        by_cases sameKey : other = key <;> simp [sameKey]

theorem considerEach_eq (carried : List Bytes) (wanted : List Text) (retained : List Bytes)
    (success : considerEach deserializeBatch carried wanted = .ok retained) :
    retained = compact (keysOf deserializeBatch) carried wanted := by
  induction carried generalizing wanted retained with
  | nil =>
      cases success
      rfl
  | cons bytes rest ih =>
      obtain ⟨batch, decoded, success⟩ := except_bind_ok _ _ _ success
      obtain ⟨keys, keysRead, success⟩ := except_bind_ok _ _ _ success
      have keysAre : keysOf deserializeBatch bytes = keys := by
        unfold keysOf
        rw [decoded, except_ok_bind, keysRead]
      simp only [deleteKeys_eq] at success
      obtain ⟨others, othersOk, success⟩ := except_bind_ok _ _ _ success
      have othersAre := ih _ _ othersOk
      cases success
      rw [compact, keysAre, othersAre]

private theorem revisionKey_injective (id : Text) (revision : Nat) (id' : Text) (revision' : Nat)
    (same : revisionKey id (Number.decimal revision) = revisionKey id' (Number.decimal revision')) :
    id = id' ∧ revision = revision' := by
  have noZero (value : Nat) : (0 : CodeUnit) ∉ Number.decimal value := by
    intro member
    have range := Number.mem_decimal value 0 member
    simp at range
  -- The separator is the last zero unit: read both keys from the end up to it.
  have reversed := congrArg List.reverse same
  simp only [revisionKey, List.reverse_append, List.reverse_cons, List.append_assoc,
    List.singleton_append] at reversed
  have splitAt (digits rest : Text) (absent : (0 : CodeUnit) ∉ digits) :
      (digits.reverse ++ 0 :: rest).takeWhile (· != 0) = digits.reverse ∧
        (digits.reverse ++ 0 :: rest).dropWhile (· != 0) = 0 :: rest := by
    have all : ∀ unit ∈ digits.reverse, (unit != 0) = true := by
      intro unit member
      have nonzero : unit ≠ 0 := fun zero => absent (zero ▸ List.mem_reverse.mp member)
      simpa using nonzero
    exact ⟨by rw [List.takeWhile_append_of_pos all]; simp,
      by rw [List.dropWhile_append_of_pos all]; simp⟩
  have left := splitAt _ id.reverse (noZero revision)
  have right := splitAt _ id'.reverse (noZero revision')
  rw [reversed] at left
  have digits := List.reverse_injective (left.1.symm.trans right.1)
  have ids := List.reverse_injective (List.cons.inj (left.2.symm.trans right.2)).2
  exact ⟨ids, Number.decimal_injective _ _ digits⟩

/-! ## The invariant of a run -/

def writesOf (filters : PushdownFilters) (bytes : Bytes) :
    List (Write Text Nat (Option FilterPredicate)) :=
  (updatesOf deserializeBatch filters bytes).map Update.toWrite

/-- The live filters are what the retained deltas write over the snapshot, and every
retained delta carries a current revision. -/
structure Compacted (snapshot filters : PushdownFilters) (history : FilterDeltaHistory) :
    Prop where
  same : SameScan snapshot filters
  coherent : filters.Coherent
  carried : ∀ bytes ∈ history.deltas, ∃ updates, Carried deserializeBatch snapshot bytes updates
  registers : filters.registers =
    writeAll snapshot.registers (history.deltas.flatMap (writesOf deserializeBatch snapshot))
  current : ∀ bytes ∈ history.deltas,
    ∃ key ∈ keysOf deserializeBatch bytes, key ∈ wantedKeys filters
  short : ∀ id ∈ filters.revisions.keys, utf8Length id ≤ maxIdBytes
  few : history.deltas.length ≤ filters.revisions.keys.length
  bounded : history.deltas ≠ [] → filters.revisions.keys.length ≤ maxPredicateIds
  order : history.deltas ≠ [] → history.order = filters.predicates.map (·.id)
  untouched : history.deltas = [] →
    filters.predicates = snapshot.predicates ∧ filters.revisions = snapshot.revisions

theorem mem_keys_iff_registers (filters : PushdownFilters) (id : Text) :
    id ∈ filters.revisions.keys ↔ (filters.registers id).isSome := by
  rw [OrderedMap.mem_keys_iff]
  unfold PushdownFilters.registers
  cases filters.revisions.get? id <;> rfl

theorem mem_wantedKeys_iff (filters : PushdownFilters) (id : Text) (revision : Nat) :
    revisionKey id (Number.decimal revision) ∈ wantedKeys filters ↔
      filters.revisions.get? id = some revision := by
  unfold wantedKeys
  rw [List.mem_map, ← OrderedMap.mem_entries_iff]
  constructor
  · rintro ⟨entry, member, sameKey⟩
    obtain ⟨sameId, sameRevision⟩ := revisionKey_injective _ _ _ _ sameKey
    rwa [← sameId, ← sameRevision]
  · exact fun member => ⟨(id, revision), member, rfl⟩

/-- The first of several fresh updates stands at its revision once they are applied. -/
private theorem installed_revision (current filters : PushdownFilters) (update : Update)
    (rest : List Update) (nodup : ((update :: rest).map (·.id)).Nodup)
    (fresh : isStale current.revisions update.id update.revision = false)
    (registers : filters.registers =
      writeAll current.registers ((update :: rest).map Update.toWrite)) :
    filters.revisions.get? update.id = some update.revision := by
  rw [List.map_cons, List.nodup_cons] at nodup
  have notStale : ¬Stale (current.registers update.toWrite.id) update.toWrite.revision := by
    intro stale
    rw [(isStale_iff_stale current update.id update.revision).mpr stale] at fresh
    cases fresh
  have held : filters.registers update.id = some (update.revision, update.predicate) := by
    rw [registers, List.map_cons, writeAll_cons, writeAll_unwritten]
    · exact write_apply_fresh current.registers update.toWrite notStale
    · intro write member sameId
      obtain ⟨other, otherMem, rfl⟩ := List.mem_map.mp member
      exact absurd (List.mem_map.mpr ⟨other, otherMem, sameId⟩) nodup.1
  unfold PushdownFilters.registers at held
  cases found : filters.revisions.get? update.id with
  | none =>
      rw [found] at held
      cases held
  | some revision =>
      rw [found] at held
      exact congrArg (Option.map Prod.fst) held

/-- The spec of one recorded delta, in terms of the updates it carries. -/
theorem recordFilterDelta_ok (snapshot current : PushdownFilters) (history : FilterDeltaHistory)
    (bytes : Bytes) (recorded : RecordedDelta) (same : SameScan snapshot current)
    (coherent : current.Coherent)
    (full : ReadsInFull deserializeBatch snapshot bytes)
    (success : recordFilterDelta deserializeBatch current history bytes = .ok recorded) :
    ∃ updates, Carried deserializeBatch snapshot bytes updates ∧
      SameScan snapshot recorded.filters ∧ recorded.filters.Coherent ∧
      recorded.filters.registers = writeAll current.registers (updates.map Update.toWrite) ∧
      recorded.filters.revisions.keys.length ≤ maxPredicateIds ∧
      (∀ update ∈ updates, utf8Length update.id ≤ maxIdBytes) ∧
      ((∃ update ∈ updates, recorded.filters.revisions.get? update.id = some update.revision) ∨
        (recorded.filters.predicates = current.predicates ∧
          recorded.filters.revisions = current.revisions)) ∧
      recorded.history.deltas = compact (keysOf deserializeBatch) (history.deltas ++ [bytes])
        (wantedKeys recorded.filters) ∧
      recorded.history.order = recorded.filters.predicates.map (·.id) := by
  obtain ⟨batch, decoded, success⟩ := except_bind_ok _ _ _ success
  obtain ⟨filters, accepted, success⟩ := except_bind_ok _ _ _ success
  obtain ⟨deltas, considered, success⟩ := except_bind_ok _ _ _ success
  cases success
  obtain ⟨updates, carried⟩ :=
    carried_of_accepted deserializeBatch snapshot current filters bytes batch same decoded accepted full
  obtain ⟨parser, entries, fresh, lowerAfter, constructed, sameContext, headed, read, within, result⟩ :=
    applyDelta_ok current batch filters accepted
  obtain ⟨carriedBatch, carriedParser, carriedEntries, after, carriedDecoded, carriedConstructed, _,
    carriedHeaded, fullRead, _⟩ := id carried
  rw [decoded] at carriedDecoded
  cases carriedDecoded
  rw [same.options, carriedConstructed] at constructed
  cases constructed
  rw [carriedHeaded] at headed
  cases headed
  obtain ⟨otherAfter, _, reread⟩ := readUpdates_of_full _ snapshot current
    same.requiredIds.symm entries 0 [] 0 after updates fullRead 0 (le_refl 0)
  rw [read] at reread
  cases reread
  obtain ⟨fullNodup, fullEach⟩ := readUpdates_fresh _ _ entries 0 [] 0 after updates fullRead
  obtain ⟨nodup, each⟩ := readUpdates_fresh _ current entries 0 [] 0 _ _ read
  obtain ⟨resultCoherent, resultRegisters⟩ :=
    applyUpdates_registers parser current _ coherent nodup each
  rw [← result] at resultCoherent resultRegisters
  have keysWithin : filters.revisions.keys.length ≤ maxPredicateIds := by
    refine le_trans (List.Subperm.length_le (filters.revisions.nodup_keys.subperm fun id member => ?_))
      within
    rw [mem_keys_iff_registers, resultRegisters, writeAll_isSome] at member
    rw [List.mem_dedup, List.mem_append, mem_keys_iff_registers]
    refine member.imp_right ?_
    rintro ⟨write, writeMem, rfl⟩
    obtain ⟨update, updateMem, rfl⟩ := List.mem_map.mp writeMem
    exact List.mem_map_of_mem (f := fun update : Update => update.id) updateMem
  have changed : (∃ update ∈ updates, filters.revisions.get? update.id = some update.revision) ∨
      (filters.predicates = current.predicates ∧ filters.revisions = current.revisions) := by
    cases freshIs : updates.filter (Update.isFresh current.revisions) with
    | nil =>
        rw [freshIs] at result
        rw [result]
        exact Or.inr (applyUpdates_nil parser current coherent)
    | cons update rest =>
        refine Or.inl ⟨update, List.mem_of_mem_filter (freshIs ▸ List.mem_cons_self), ?_⟩
        rw [freshIs] at nodup each resultRegisters
        exact installed_revision current filters update rest nodup
          (each update List.mem_cons_self).fresh resultRegisters
  refine ⟨updates, carried, ?_, resultCoherent, ?_, keysWithin,
    fun update member => (fullEach update member).short, changed,
    considerEach_eq deserializeBatch _ _ _ considered, rfl⟩
  · rw [result]
    exact ⟨sameContext.trans same.context, same.options, same.requiredIds⟩
  · rw [resultRegisters, toWrite_filter, writeAll_filter_fresh]
    rw [List.map_map]
    exact fullNodup

/-! ## One recorded delta -/

theorem compacted_step (snapshot current : PushdownFilters) (history : FilterDeltaHistory)
    (bytes : Bytes) (recorded : RecordedDelta)
    (compacted : Compacted deserializeBatch snapshot current history)
    (full : ReadsInFull deserializeBatch snapshot bytes)
    (success : recordFilterDelta deserializeBatch current history bytes = .ok recorded) :
    Compacted deserializeBatch snapshot recorded.filters recorded.history := by
  obtain ⟨updates, carried, same, coherent, registers, within, shortIds, changed, deltas, order⟩ :=
    recordFilterDelta_ok deserializeBatch snapshot current history bytes recorded compacted.same
      compacted.coherent full success
  obtain ⟨updatesAre, keysAre⟩ := updatesOf_carried deserializeBatch snapshot bytes updates carried
  have allCarried : ∀ document ∈ history.deltas ++ [bytes],
      ∃ updates, Carried deserializeBatch snapshot document updates := by
    intro document member
    rcases List.mem_append.mp member with earlier | last
    · exact compacted.carried document earlier
    · rw [List.mem_singleton.mp last]
      exact ⟨updates, carried⟩
  have wholeLog : recorded.filters.registers = writeAll snapshot.registers
      ((history.deltas ++ [bytes]).flatMap (writesOf deserializeBatch snapshot)) := by
    rw [registers, compacted.registers, List.flatMap_append, writeAll_append]
    simp [writesOf, updatesAre]
  have isRetained : ∀ document ∈ recorded.history.deltas, document ∈ history.deltas ++ [bytes] := by
    rw [deltas]
    exact fun document member => (compact_sublist _ _ _).subset member
  refine ⟨same, coherent, fun document member => allCarried document (isRetained document member),
    ?_, ?_, ?_, ?_, fun _ => within, fun _ => order, ?_⟩
  · rw [deltas, wholeLog]
    refine (writeAll_compact (keysOf deserializeBatch) (writesOf deserializeBatch snapshot)
      (fun id revision => revisionKey id (Number.decimal revision)) revisionKey_injective
      snapshot.registers _ _ ?_ ?_).symm
    · intro document member
      obtain ⟨documentUpdates, documentCarried⟩ := allCarried document member
      obtain ⟨itsUpdates, itsKeys⟩ :=
        updatesOf_carried deserializeBatch snapshot document documentUpdates documentCarried
      rw [itsKeys, writesOf, itsUpdates, List.map_map]
      rfl
    · intro id held found
      rw [← wholeLog] at found
      rw [mem_wantedKeys_iff]
      unfold PushdownFilters.registers at found
      obtain ⟨revision, inMap, rfl⟩ := Option.map_eq_some_iff.mp found
      exact inMap
  · rw [deltas]
    exact compact_carries _ _ _
  · intro id member
    rw [mem_keys_iff_registers, registers, writeAll_isSome, ← mem_keys_iff_registers] at member
    rcases member with inCurrent | ⟨write, writeMem, rfl⟩
    · exact compacted.short id inCurrent
    · obtain ⟨update, updateMem, rfl⟩ := List.mem_map.mp writeMem
      exact shortIds update updateMem
  · rw [deltas]
    refine le_trans (length_compact_le _ _ _) (le_of_eq ?_)
    simp [wantedKeys, OrderedMap.keys]
  · intro nothing
    rw [deltas] at nothing
    have unwanted := not_wanted_of_compact_eq_nil _ _ _ nothing
    rcases changed with ⟨update, updateMem, installed⟩ | ⟨predicates, revisions⟩
    · -- The key of the installed update is wanted, and this very delta carries it.
      refine absurd ((mem_wantedKeys_iff _ _ _).mpr installed)
        (unwanted bytes (List.mem_append_right _ List.mem_cons_self) _ ?_)
      rw [keysAre]
      exact List.mem_map_of_mem (f := Update.key) updateMem
    · have wasEmpty : history.deltas = [] := by
        apply List.eq_nil_iff_forall_not_mem.mpr
        intro document member
        obtain ⟨key, inDocument, want⟩ := compacted.current document member
        refine unwanted document (List.mem_append_left _ member) key inDocument ?_
        unfold wantedKeys at want ⊢
        rwa [revisions]
      obtain ⟨untouchedPredicates, untouchedRevisions⟩ := compacted.untouched wasEmpty
      exact ⟨predicates.trans untouchedPredicates, revisions.trans untouchedRevisions⟩

end

end VgiWorker.FilterPushdown
