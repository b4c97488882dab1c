import VgiWorker.FilterPushdown.HistoryProperties

/-!
# Replay rebuilds the live filters

A run records deltas one after another from a snapshot. When each of them reads
in full, replaying the compacted history yields the live filters, also once the
history has been through the state token.
-/

set_option autoImplicit false

namespace VgiWorker.FilterPushdown

open VgiWorker.Js VgiWorker.Arrow VgiWorker.LastWriter FilterParser

section

variable (deserializeBatch : DeserializeBatch)

/-- Record the deltas of a run in turn. -/
def recordFilterDeltas (current : PushdownFilters) (history : FilterDeltaHistory) :
    List Bytes → Except Fault RecordedDelta
  | [] => .ok ⟨current, history⟩
  | bytes :: rest => do
      let recorded ← recordFilterDelta deserializeBatch current history bytes
      recordFilterDeltas recorded.filters recorded.history rest

theorem compacted_start (batch : Batch) (options : DeserializeFilterOptions)
    (snapshot : PushdownFilters) (success : deserializeFilters batch options = .ok snapshot) :
    Compacted deserializeBatch snapshot snapshot emptyFilterHistory := by
  obtain ⟨coherent, short⟩ := snapshot_coherent batch options snapshot success
  exact {
    same := ⟨rfl, rfl, rfl⟩
    coherent := coherent
    carried := fun _ member => absurd member List.not_mem_nil
    registers := rfl
    current := fun _ member => absurd member List.not_mem_nil
    short := short
    few := Nat.zero_le _
    bounded := fun nonempty => absurd rfl nonempty
    order := fun nonempty => absurd rfl nonempty
    untouched := fun _ => ⟨rfl, rfl⟩ }

theorem compacted_run (snapshot current : PushdownFilters) (history : FilterDeltaHistory)
    (deltas : List Bytes) (recorded : RecordedDelta)
    (compacted : Compacted deserializeBatch snapshot current history)
    (full : ∀ bytes ∈ deltas, ReadsInFull deserializeBatch snapshot bytes)
    (success : recordFilterDeltas deserializeBatch current history deltas = .ok recorded) :
    Compacted deserializeBatch snapshot recorded.filters recorded.history := by
  induction deltas generalizing current history with
  | nil =>
      cases success
      exact compacted
  | cons bytes rest ih =>
      obtain ⟨next, first, others⟩ := except_bind_ok _ _ _ success
      have stepped := compacted_step deserializeBatch snapshot current history bytes next compacted
        (full bytes List.mem_cons_self) first
      exact ih _ _ stepped (fun other member => full other (List.mem_cons_of_mem _ member)) others

/-! ## Replaying the retained deltas -/

/-- Carried deltas replay one after another while their ids stay within a known set. -/
theorem replayDeltas_carried (snapshot current : PushdownFilters) (documents : List Bytes)
    (ids : List Text) (few : ids.length ≤ maxPredicateIds) (same : SameScan snapshot current)
    (coherent : current.Coherent)
    (carried : ∀ bytes ∈ documents, ∃ updates, Carried deserializeBatch snapshot bytes updates)
    (currentIds : current.revisions.keys ⊆ ids)
    (writtenIds : ∀ write ∈ documents.flatMap (writesOf deserializeBatch snapshot), write.id ∈ ids) :
    ∃ replayed, replayDeltas deserializeBatch current documents = .ok replayed ∧
      SameScan snapshot replayed ∧ replayed.Coherent ∧
      replayed.registers =
        writeAll current.registers (documents.flatMap (writesOf deserializeBatch snapshot)) := by
  induction documents generalizing current with
  | nil => exact ⟨current, rfl, same, coherent, rfl⟩
  | cons bytes rest ih =>
      obtain ⟨updates, bytesCarried⟩ := carried bytes List.mem_cons_self
      have writes : writesOf deserializeBatch snapshot bytes = updates.map Update.toWrite := by
        rw [writesOf, (updatesOf_carried deserializeBatch snapshot bytes updates bytesCarried).1]
      rw [List.flatMap_cons, writes] at writtenIds
      have updateIds : ∀ update ∈ updates, update.id ∈ ids := fun update member =>
        writtenIds update.toWrite
          (List.mem_append_left _ (List.mem_map_of_mem (f := Update.toWrite) member))
      have within : (current.revisions.keys ++ updates.map (·.id)).dedup.length ≤
          maxPredicateIds := by
        refine le_trans (List.Subperm.length_le (List.nodup_dedup _ |>.subperm fun id member => ?_)) few
        rw [List.mem_dedup, List.mem_append] at member
        rcases member with inCurrent | inUpdates
        · exact currentIds inCurrent
        · obtain ⟨update, updateMem, rfl⟩ := List.mem_map.mp inUpdates
          exact updateIds update updateMem
      obtain ⟨batch, next, decoded, applied, nextSame, nextCoherent, nextRegisters⟩ :=
        carried_apply deserializeBatch snapshot current bytes updates bytesCarried same coherent within
      have nextIds : next.revisions.keys ⊆ ids := by
        intro id member
        rw [mem_keys_iff_registers, nextRegisters, writeAll_isSome, ← mem_keys_iff_registers]
          at member
        rcases member with inCurrent | ⟨write, writeMem, rfl⟩
        · exact currentIds inCurrent
        · exact writtenIds write (List.mem_append_left _ writeMem)
      obtain ⟨replayed, replayedOk, replayedSame, replayedCoherent, replayedRegisters⟩ :=
        ih next nextSame nextCoherent
          (fun other member => carried other (List.mem_cons_of_mem _ member)) nextIds
          (fun write member => writtenIds write (List.mem_append_right _ member))
      refine ⟨replayed, ?_, replayedSame, replayedCoherent, ?_⟩
      · rw [replayDeltas, decoded, except_ok_bind, applied, except_ok_bind, replayedOk]
      · rw [replayedRegisters, nextRegisters, List.flatMap_cons, writes, writeAll_append]

/-! ## The order of the live predicates -/

/-- Filter sets with equal registers hold the same predicate under each id. -/
theorem find?_of_registers (first second : PushdownFilters) (firstCoherent : first.Coherent)
    (secondCoherent : second.Coherent) (same : first.registers = second.registers) (id : Text) :
    first.find? id = second.find? id := by
  have held := congrFun same id
  have missing (filters : PushdownFilters) (coherent : filters.Coherent)
      (unrevised : filters.revisions.get? id = none) : filters.find? id = none := by
    unfold PushdownFilters.find?
    rw [List.find?_eq_none]
    intro predicate member sameId
    have recorded := coherent.current predicate member
    rw [beq_iff_eq.mp sameId, unrevised] at recorded
    cases recorded
  unfold PushdownFilters.registers at held
  cases firstFound : first.revisions.get? id with
  | none =>
      cases secondFound : second.revisions.get? id with
      | none => rw [missing first firstCoherent firstFound, missing second secondCoherent secondFound]
      | some revision =>
          rw [firstFound, secondFound] at held
          cases held
  | some revision =>
      cases secondFound : second.revisions.get? id with
      | none =>
          rw [firstFound, secondFound] at held
          cases held
      | some other =>
          rw [firstFound, secondFound] at held
          injection held with pair
          exact congrArg Prod.snd pair

theorem revisions_of_registers (first second : PushdownFilters)
    (same : first.registers = second.registers) (id : Text) :
    first.revisions.get? id = second.revisions.get? id := by
  have held := congrArg (Option.map Prod.fst) (congrFun same id)
  have forget (filters : PushdownFilters) :
      (filters.registers id).map Prod.fst = filters.revisions.get? id := by
    unfold PushdownFilters.registers
    cases filters.revisions.get? id <;> rfl
  rwa [forget, forget] at held

/-- Arranged in the order of the live ids, the replayed predicates are the live ones. -/
theorem withPredicateOrder_live (live replayed : PushdownFilters) (liveCoherent : live.Coherent)
    (replayedCoherent : replayed.Coherent) (same : replayed.registers = live.registers) :
    replayed.withPredicateOrder (live.predicates.map (·.id)) =
      .ok { replayed with predicates := live.predicates } := by
  have sameFind := find?_of_registers replayed live replayedCoherent liveCoherent same
  have inReplayed : (live.predicates.map (·.id)).filterMap replayed.find? = live.predicates :=
    filterMap_find? replayed live.predicates fun predicate member => by
      rw [sameFind, find?_of_mem live liveCoherent predicate member]
  rw [withPredicateOrder_eq]
  split
  · rename_i sameOrder
    have itself : (replayed.predicates.map (·.id)).filterMap replayed.find? = replayed.predicates :=
      filterMap_find? replayed replayed.predicates fun predicate member =>
        find?_of_mem replayed replayedCoherent predicate member
    rw [sameOrder, inReplayed] at itself
    rw [itself]
  · have ids : ∀ id, id ∈ live.predicates.map (·.id) ↔ id ∈ replayed.predicates.map (·.id) := by
      have subset (first second : PushdownFilters) (coherent : first.Coherent)
          (agree : ∀ id, first.find? id = second.find? id) (id : Text)
          (member : id ∈ first.predicates.map (·.id)) : id ∈ second.predicates.map (·.id) := by
        obtain ⟨predicate, predicateMem, rfl⟩ := List.mem_map.mp member
        have found := find?_of_mem first coherent predicate predicateMem
        rw [agree] at found
        exact List.mem_map_of_mem (mem_of_find? second _ _ found).1
      exact fun id => ⟨subset live replayed liveCoherent (fun id => (sameFind id).symm) id,
        subset replayed live replayedCoherent sameFind id⟩
    have byId : ∀ id, (liveOf replayed).get? id = replayed.find? id :=
      get?_liveOf replayed replayedCoherent
    have passes : ¬((live.predicates.map (·.id)).length ≠ (liveOf replayed).entries.length ∨
        ¬(live.predicates.map (·.id)).Nodup ∨
        ¬(live.predicates.map (·.id)).all (liveOf replayed).has) := by
      rintro (length | nodup | unknown)
      · apply length
        rw [entries_liveOf replayed replayedCoherent, List.length_map]
        have perm := (List.perm_ext_iff_of_nodup liveCoherent.nodup replayedCoherent.nodup).mpr ids
        simpa using perm.length_eq
      · exact nodup liveCoherent.nodup
      · apply unknown
        rw [List.all_eq_true]
        intro id member
        obtain ⟨predicate, predicateMem, rfl⟩ := List.mem_map.mp member
        rw [OrderedMap.has, byId, sameFind, find?_of_mem live liveCoherent predicate predicateMem]
        rfl
    rw [if_neg passes]
    have arranged : (live.predicates.map (·.id)).filterMap (liveOf replayed).get? =
        live.predicates := by
      rw [← inReplayed]
      exact congrArg₂ List.filterMap (funext byId) (by rw [inReplayed])
    rw [arranged]

/-- Two filter sets a stream cannot tell apart: the same predicates in the same order,
and the same revision or tombstone under each id. -/
structure SameFilters (live replayed : PushdownFilters) : Prop where
  predicates : replayed.predicates = live.predicates
  revisions : ∀ id, replayed.revisions.get? id = live.revisions.get? id
  requiredIds : replayed.requiredIds = live.requiredIds
  evaluationContext : replayed.evaluationContext = live.evaluationContext
  options : replayed.options = live.options

theorem SameFilters.evaluate {live replayed : PushdownFilters} (same : SameFilters live replayed)
    (batch : Batch) : replayed.evaluate batch = live.evaluate batch := by
  unfold PushdownFilters.evaluate
  rw [same.predicates, same.evaluationContext]

theorem replay_compacted (snapshot live : PushdownFilters) (history : FilterDeltaHistory)
    (coherent : snapshot.Coherent)
    (compacted : Compacted deserializeBatch snapshot live history) :
    ∃ replayed, replayFilterHistory deserializeBatch (some snapshot) (some history) =
        .ok (some replayed) ∧ SameFilters live replayed := by
  unfold replayFilterHistory
  by_cases nothing : history.deltas = []
  · obtain ⟨predicates, revisions⟩ := compacted.untouched nothing
    refine ⟨snapshot, if_pos nothing, ?_⟩
    exact {
      predicates := predicates.symm
      revisions := fun id => by rw [revisions]
      requiredIds := compacted.same.requiredIds.symm
      evaluationContext := compacted.same.context.symm
      options := compacted.same.options.symm }
  · have knownIds (id : Text) : id ∈ live.revisions.keys ↔ id ∈ snapshot.revisions.keys ∨
        ∃ write ∈ history.deltas.flatMap (writesOf deserializeBatch snapshot), write.id = id := by
      rw [mem_keys_iff_registers, mem_keys_iff_registers, compacted.registers, writeAll_isSome]
    obtain ⟨replayed, replayedOk, same, replayedCoherent, registers⟩ :=
      replayDeltas_carried deserializeBatch snapshot snapshot history.deltas live.revisions.keys
        (compacted.bounded nothing) ⟨rfl, rfl, rfl⟩ coherent compacted.carried
        (fun id member => (knownIds id).mpr (Or.inl member))
        (fun write member => (knownIds write.id).mpr (Or.inr ⟨write, member, rfl⟩))
    have sameRegisters : replayed.registers = live.registers := by
      rw [registers, compacted.registers]
    have arranged :=
      withPredicateOrder_live live replayed compacted.coherent replayedCoherent sameRegisters
    refine ⟨{ replayed with predicates := live.predicates }, ?_, ?_⟩
    · simp only [if_neg nothing, replayedOk, except_ok_bind, compacted.order nothing, arranged]
      rfl
    · exact {
        predicates := rfl
        revisions := revisions_of_registers replayed live sameRegisters
        requiredIds := same.requiredIds.trans compacted.same.requiredIds.symm
        evaluationContext := same.context.trans compacted.same.context.symm
        options := same.options.trans compacted.same.options.symm }

/-! ## Through the state token -/

theorem takeCounted_putChunks (chunks : List Bytes) (rest : Bytes)
    (count : chunks.length < 256 ^ 4) (bound : ∀ chunk ∈ chunks, chunk.length < 256 ^ 4) :
    takeCounted (putChunks chunks ++ rest) = .ok (chunks, rest) := by
  unfold takeCounted putChunks
  rw [List.append_assoc, takeInt_leBytes_of_lt 4 _ _ count]
  simp only [takeChunks_putChunks 4 chunks rest bound]

theorem mapM_decodeId (ids : List Text) (survive : ∀ id ∈ ids, SurvivesUtf8 id) :
    (ids.map utf8Encode).mapM decodeId = .ok ids := by
  induction ids with
  | nil => rfl
  | cons id rest ih =>
      have first : decodeId (utf8Encode id) = .ok id := by
        rw [decodeId, utf8Decode_of_survives id (survive id List.mem_cons_self)]
      rw [List.map_cons, List.mapM_cons, first, except_ok_bind,
        ih fun other member => survive other (List.mem_cons_of_mem _ member)]
      rfl

/-- A history within the token's widths comes back from it. -/
theorem decodeFilterHistory_encode (history : FilterDeltaHistory) (nonempty : history.deltas ≠ [])
    (few : history.deltas.length < 256 ^ 4) (short : ∀ bytes ∈ history.deltas, bytes.length < 256 ^ 4)
    (fewIds : history.order.length < 256 ^ 4)
    (shortIds : ∀ id ∈ history.order, utf8Length id < 256 ^ 4)
    (survive : ∀ id ∈ history.order, SurvivesUtf8 id) :
    decodeFilterHistory (encodeFilterHistory (some history)) = .ok history := by
  have order := takeCounted_putChunks (history.order.map utf8Encode) [] (by simpa using fewIds)
    (by simpa [utf8Length] using shortIds)
  have deltas := takeCounted_putChunks history.deltas
    (putChunks (history.order.map utf8Encode)) few short
  rw [List.append_nil] at order
  rw [encodeFilterHistory, if_neg nonempty]
  unfold decodeFilterHistory
  simp only [ne_eq, not_true_eq_false, if_false, deltas, except_ok_bind, order,
    mapM_decodeId history.order survive]

theorem decodeFilterDelta_length (bytes : Bytes) (batch : Batch)
    (success : decodeFilterDelta deserializeBatch bytes = .ok batch) :
    bytes.length ≤ maxDeltaIpcBytes := by
  unfold decodeFilterDelta at success
  split at success
  · cases success
  · rename_i within
    exact not_lt.mp within

/-- The history of a run fits the state token, ids aside that UTF-8 does not give back. -/
theorem token_compacted (snapshot live : PushdownFilters) (history : FilterDeltaHistory)
    (compacted : Compacted deserializeBatch snapshot live history)
    (survive : ∀ predicate ∈ live.predicates, SurvivesUtf8 predicate.id) :
    ∃ carried, decodeFilterHistory (encodeFilterHistory (some history)) = .ok carried ∧
      replayFilterHistory deserializeBatch (some snapshot) (some carried) =
        replayFilterHistory deserializeBatch (some snapshot) (some history) := by
  by_cases nothing : history.deltas = []
  · refine ⟨emptyFilterHistory, ?_, ?_⟩
    · rw [encodeFilterHistory, if_pos nothing]
      rfl
    · simp only [replayFilterHistory, if_pos nothing, emptyFilterHistory, if_true]
  · have order := compacted.order nothing
    have keys := compacted.bounded nothing
    have liveIds : live.predicates.map (·.id) ⊆ live.revisions.keys := by
      intro id member
      obtain ⟨predicate, predicateMem, rfl⟩ := List.mem_map.mp member
      rw [OrderedMap.mem_keys_iff, compacted.coherent.current predicate predicateMem]
      rfl
    have fewLive := (compacted.coherent.nodup.subperm liveIds).length_le
    have limit : maxPredicateIds < 256 ^ 4 := by decide
    refine ⟨history, decodeFilterHistory_encode history nothing ?_ ?_ ?_ ?_ ?_, rfl⟩
    · exact lt_of_le_of_lt (le_trans compacted.few keys) limit
    · intro bytes member
      obtain ⟨_, batch, _, _, _, decoded, _⟩ := compacted.carried bytes member
      exact lt_of_le_of_lt (decodeFilterDelta_length deserializeBatch bytes batch decoded) (by decide)
    · rw [order]
      exact lt_of_le_of_lt (le_trans fewLive keys) limit
    · rw [order]
      exact fun id member => lt_of_le_of_lt (compacted.short id (liveIds member)) (by decide)
    · rw [order]
      intro id member
      obtain ⟨predicate, predicateMem, rfl⟩ := List.mem_map.mp member
      exact survive predicate predicateMem

/-- In a run whose deltas read in full, replaying the recorded history rebuilds the live
filters, and so does replaying it from the state token. -/
theorem replay_equals_live (batch : Batch) (options : DeserializeFilterOptions)
    (snapshot : PushdownFilters) (deltas : List Bytes) (recorded : RecordedDelta)
    (accepted : deserializeFilters batch options = .ok snapshot)
    (recording :
      recordFilterDeltas deserializeBatch snapshot emptyFilterHistory deltas = .ok recorded)
    (full : ∀ bytes ∈ deltas, ReadsInFull deserializeBatch snapshot bytes) :
    ∃ replayed,
      replayFilterHistory deserializeBatch (some snapshot) (some recorded.history) =
        .ok (some replayed) ∧
      SameFilters recorded.filters replayed ∧
      (∀ batch, replayed.evaluate batch = recorded.filters.evaluate batch) ∧
      ((∀ predicate ∈ recorded.filters.predicates, SurvivesUtf8 predicate.id) →
        ∃ carried, decodeFilterHistory (encodeFilterHistory (some recorded.history)) = .ok carried ∧
          replayFilterHistory deserializeBatch (some snapshot) (some carried) =
            .ok (some replayed)) := by
  have compacted := compacted_run deserializeBatch snapshot snapshot emptyFilterHistory deltas recorded
    (compacted_start deserializeBatch batch options snapshot accepted) full recording
  obtain ⟨replayed, replayedOk, same⟩ := replay_compacted deserializeBatch snapshot recorded.filters
    recorded.history (snapshot_coherent batch options snapshot accepted).1 compacted
  refine ⟨replayed, replayedOk, same, same.evaluate, fun survive => ?_⟩
  obtain ⟨carried, decoded, agrees⟩ := token_compacted deserializeBatch snapshot recorded.filters
    recorded.history compacted survive
  exact ⟨carried, decoded, agrees.trans replayedOk⟩

end

/-! ## Sample documents -/

/-- A filter document on the wire, with no evaluation context. -/
def documentBatch (document : Text) : Batch where
  schema := ⟨[⟨text "filter_spec", .utf8, false, .empty⟩],
    .ofEntries [(text "vgi_filter_encoding", filterEncoding), (text "vgi_filter_version", filterVersion),
      (text "vgi_evaluation_context", noEvaluationContext)]⟩
  columns := [[.string document]]
  numRows := 1
  metadata := none

def quotedText (value : String) : Text :=
  34 :: text value ++ [34]

def memberText (name : String) (value : Text) : Text :=
  quotedText name ++ 58 :: value

def objectText (members : List Text) : Text :=
  123 :: joinText [44] members ++ [125]

def arrayText (elements : List Text) : Text :=
  91 :: joinText [44] elements ++ [93]

def documentOf (kind member : String) (entries : List Text) : Batch :=
  documentBatch (objectText [memberText "encoding" (quotedText "vgi.filters.v2"),
    memberText "semantics" (quotedText "vgi.duckdb.standard.v1"),
    memberText "kind" (quotedText kind), memberText member (arrayText entries)])

def snapshotOf (predicates : List Text) : Batch :=
  documentOf "snapshot" "predicates" predicates

def deltaOf (updates : List Text) : Batch :=
  documentOf "delta" "updates" updates

/-- The members of a predicate that keeps the rows whose BOOLEAN `column` is true. -/
def flagMembers (id revision mode column : String) : List Text :=
  [memberText "id" (quotedText id), memberText "revision" (text revision),
    memberText "mode" (quotedText mode), memberText "source" (quotedText "query"),
    memberText "expression" (objectText [memberText "node" (quotedText "column_ref"),
      memberText "column_index" (text "0"), memberText "column_name" (quotedText column)])]

def flagUpsert (id revision column : String) : Text :=
  objectText (memberText "operation" (quotedText "upsert") ::
    flagMembers id revision "advisory" column)

def flagOptions : DeserializeFilterOptions where
  outputSchema := ⟨[⟨text "flag", .bool, true, .empty⟩], .empty⟩

/-- The second delta's update of `a` is superseded by the first delta, and names a column
that does not exist. -/
def staleUnreadable : DeserializeBatch
  | [1] => .ok (deltaOf [flagUpsert "a" "5" "flag"])
  | [2] => .ok (deltaOf [flagUpsert "a" "3" "gone", flagUpsert "b" "1" "flag"])
  | [3] => .ok (deltaOf [flagUpsert "a" "6" "flag"])
  | _ => .error .typeError

/-- The same run with an expression that reads. -/
def staleReadable : DeserializeBatch
  | [2] => .ok (deltaOf [flagUpsert "a" "3" "flag", flagUpsert "b" "1" "flag"])
  | bytes => staleUnreadable bytes

def sampleDeltas : List Bytes := [[1], [2], [3]]

/-- Record a run from the empty snapshot. -/
def recordRun (deserializeBatch : DeserializeBatch) (deltas : List Bytes) :
    Except Fault (PushdownFilters × RecordedDelta) := do
  let snapshot ← deserializeFilters (snapshotOf []) flagOptions
  let recorded ← recordFilterDeltas deserializeBatch snapshot emptyFilterHistory deltas
  .ok (snapshot, recorded)

private theorem recordRun_ok (deserializeBatch : DeserializeBatch) (deltas : List Bytes)
    (snapshot : PushdownFilters) (recorded : RecordedDelta)
    (success : recordRun deserializeBatch deltas = .ok (snapshot, recorded)) :
    deserializeFilters (snapshotOf []) flagOptions = .ok snapshot ∧
      recordFilterDeltas deserializeBatch snapshot emptyFilterHistory deltas = .ok recorded := by
  obtain ⟨_, accepted, success⟩ := except_bind_ok _ _ _ success
  obtain ⟨_, recording, success⟩ := except_bind_ok _ _ _ success
  cases success
  exact ⟨accepted, recording⟩

theorem replay_equals_live_sample : ∃ snapshot recorded replayed,
    recordFilterDeltas staleReadable snapshot emptyFilterHistory sampleDeltas = .ok recorded ∧
      recorded.history.deltas = [[2], [3]] ∧
      replayFilterHistory staleReadable (some snapshot) (some recorded.history) =
        .ok (some replayed) ∧
      SameFilters recorded.filters replayed := by
  have run : (recordRun staleReadable sampleDeltas).map
      (fun run : PushdownFilters × RecordedDelta => (run.2.history.deltas,
        decide (∀ bytes ∈ sampleDeltas, ReadsInFull staleReadable run.1 bytes))) =
      .ok ([[2], [3]], true) := by
    decide +kernel
  cases recorded : recordRun staleReadable sampleDeltas with
  | error fault =>
      rw [recorded] at run
      cases run
  | ok run' =>
      obtain ⟨accepted, recording⟩ := recordRun_ok _ _ _ _ recorded
      rw [recorded] at run
      injection run with outcome
      injection outcome with deltas full
      obtain ⟨replayed, replayedOk, same, _⟩ := replay_equals_live staleReadable (snapshotOf [])
        flagOptions run'.1 sampleDeltas run'.2 accepted recording (of_decide_eq_true full)
      exact ⟨run'.1, run'.2, replayed, recording, deltas, replayedOk, same⟩

/-- A run of accepted deltas whose recorded history does not replay. -/
theorem replay_faults_after_stale_update : ∃ snapshot recorded,
    deserializeFilters (snapshotOf []) flagOptions = .ok snapshot ∧
      recordFilterDeltas staleUnreadable snapshot emptyFilterHistory sampleDeltas = .ok recorded ∧
      recorded.history.deltas = [[2], [3]] ∧
      (replayFilterHistory staleUnreadable (some snapshot) (some recorded.history)).map
          (fun _ => ()) =
        .error (.filterV2Error (text "column_ref gone does not match index 0")) := by
  have run : (recordRun staleUnreadable sampleDeltas).map (fun run : PushdownFilters × RecordedDelta =>
      (run.2.history.deltas,
        (replayFilterHistory staleUnreadable (some run.1) (some run.2.history)).map fun _ => ())) =
      .ok ([[2], [3]],
        .error (.filterV2Error (text "column_ref gone does not match index 0"))) := by
    decide +kernel
  cases recorded : recordRun staleUnreadable sampleDeltas with
  | error fault =>
      rw [recorded] at run
      cases run
  | ok run' =>
      obtain ⟨accepted, recording⟩ := recordRun_ok _ _ _ _ recorded
      rw [recorded] at run
      injection run with outcome
      injection outcome with deltas replay
      exact ⟨run'.1, run'.2, accepted, recording, deltas, replay⟩

end VgiWorker.FilterPushdown
