import VgiWorker.FilterPushdown.Required
import VgiWorker.Js.ChunkReaders

/-!
# The history in the state token

The encoded history of a scan delimits itself: it reads back, and cut short or
extended it is refused. Only the empty string reads as a history of its own.
-/

set_option autoImplicit false

namespace VgiWorker.FilterPushdown

open VgiWorker.Js VgiWorker.Arrow VgiWorker.LastWriter VgiWorker.SelfDelimiting FilterParser

/-! ## The encoding -/

/-- What the length fields of the token can hold. -/
structure FitsToken (history : FilterDeltaHistory) : Prop where
  few : history.deltas.length < 256 ^ 4
  short : ∀ bytes ∈ history.deltas, bytes.length < 256 ^ 4
  fewIds : history.order.length < 256 ^ 4
  shortIds : ∀ id ∈ history.order, utf8Length id < 256 ^ 4

private theorem takeCounted_reader :
    takeCounted = andThen (orThrow (.error (text
      "dynamic filter history in the state token is truncated")) (takeInt 4)) fun count =>
      orThrow (.error (text "dynamic filter history in the state token is truncated"))
        (takeChunks 4 count) := by
  funext bytes
  unfold takeCounted andThen orThrow truncatedHistory
  cases takeInt 4 bytes with
  | none => rfl
  | some counted =>
      simp only [except_ok_bind]
      cases takeChunks 4 counted.1 counted.2 <;> rfl

private theorem delimits_takeCounted (chunks : List Bytes) (count : chunks.length < 256 ^ 4)
    (bound : ∀ chunk ∈ chunks, chunk.length < 256 ^ 4) :
    Delimits takeCounted (putChunks chunks) chunks := by
  rw [takeCounted_reader]
  exact (delimits_takeInt _ 4 chunks.length count).andThen (delimits_takeChunks _ 4 chunks bound)

/-- The deltas and the ids behind the version byte. -/
def takeHistory : Reader UInt8 Fault (List Bytes × List Bytes) :=
  andThen takeCounted fun deltas => andThen takeCounted fun ids => done (deltas, ids)

private def finishHistory (taken : (List Bytes × List Bytes) × Bytes) :
    Except Fault FilterDeltaHistory := do
  let order ← taken.1.2.mapM decodeId
  if taken.2 ≠ [] then
    .error (.error (text "dynamic filter history in the state token has trailing bytes"))
  else .ok ⟨taken.1.1, order⟩

private theorem decodeFilterHistory_body (bytes : Bytes) :
    decodeFilterHistory (some (historyFormatVersion :: bytes)) =
      (takeHistory bytes >>= finishHistory) := by
  simp only [decodeFilterHistory, takeHistory, andThen, done, ne_eq, not_true_eq_false, if_false]
  cases takeCounted bytes with
  | error fault => rfl
  | ok deltas =>
      simp only [except_ok_bind]
      cases takeCounted deltas.2 <;> rfl

private def historyBody (history : FilterDeltaHistory) : Bytes :=
  putChunks history.deltas ++ putChunks (history.order.map utf8Encode)

private theorem encodeFilterHistory_body (history : FilterDeltaHistory)
    (nonempty : history.deltas ≠ []) :
    encodeFilterHistory (some history) = some (historyFormatVersion :: historyBody history) :=
  if_neg nonempty

private theorem delimits_takeHistory (history : FilterDeltaHistory) (fits : FitsToken history) :
    Delimits takeHistory (historyBody history)
      (history.deltas, history.order.map utf8Encode) := by
  have ids := delimits_takeCounted (history.order.map utf8Encode) (by simpa using fits.fewIds)
    (by simpa [utf8Length] using fits.shortIds)
  have last := ids.andThen (delimits_done (history.deltas, history.order.map utf8Encode))
    (f := fun ids => done (history.deltas, ids))
  rw [List.append_nil] at last
  exact (delimits_takeCounted history.deltas fits.few fits.short).andThen last

/-- Nothing but the empty string reads as a history when the token is cut short. -/
theorem decodeFilterHistory_cut (history : FilterDeltaHistory) (fits : FitsToken history)
    (code kept : Bytes) (encoded : encodeFilterHistory (some history) = some code)
    (isPrefix : kept <+: code) (shorter : kept ≠ code) (nonempty : kept ≠ []) :
    Refuses (decodeFilterHistory (some kept)) := by
  by_cases nothing : history.deltas = []
  · rw [encodeFilterHistory, if_pos nothing] at encoded
    cases encoded
  · rw [encodeFilterHistory_body history nothing] at encoded
    cases encoded
    cases kept with
    | nil => exact absurd rfl nonempty
    | cons version kept =>
        obtain ⟨rfl, bodyPrefix⟩ := List.cons_prefix_cons.mp isPrefix
        rw [decodeFilterHistory_body]
        refine ((delimits_takeHistory history fits).cut kept bodyPrefix fun whole => ?_).bind _ _
        exact shorter (congrArg _ whole)

theorem decodeFilterHistory_extended (history : FilterDeltaHistory) (fits : FitsToken history)
    (code extra : Bytes) (encoded : encodeFilterHistory (some history) = some code)
    (nonempty : extra ≠ []) : Refuses (decodeFilterHistory (some (code ++ extra))) := by
  by_cases nothing : history.deltas = []
  · rw [encodeFilterHistory, if_pos nothing] at encoded
    cases encoded
  · rw [encodeFilterHistory_body history nothing] at encoded
    cases encoded
    rw [List.cons_append, decodeFilterHistory_body,
      (delimits_takeHistory history fits).reads extra, except_ok_bind, finishHistory]
    cases (history.order.map utf8Encode).mapM decodeId with
    | error fault => exact ⟨fault, rfl⟩
    | ok order =>
        rw [except_ok_bind, if_pos nonempty]
        exact ⟨_, rfl⟩

/-! ## The histories of a scan -/

/-- Coherent filters whose ids are within the parser's limit. -/
structure ShortIds (filters : PushdownFilters) : Prop where
  coherent : filters.Coherent
  short : ∀ id ∈ filters.revisions.keys, utf8Length id ≤ maxIdBytes

theorem shortIds_delta (current next : PushdownFilters) (batch : Batch)
    (held : ShortIds current) (accepted : current.applyDelta batch = .ok next) :
    ShortIds next ∧ next.revisions.keys.length ≤ maxPredicateIds := by
  obtain ⟨parser, entries, updates, after, _, _, _, read, within, result⟩ :=
    applyDelta_ok current batch next accepted
  obtain ⟨nodup, each⟩ := readUpdates_fresh parser current entries 0 [] 0 after updates read
  obtain ⟨coherent, registers⟩ :=
    applyUpdates_registers parser current updates held.coherent nodup each
  rw [← result] at coherent registers
  have known : ∀ id ∈ next.revisions.keys,
      id ∈ current.revisions.keys ∨ ∃ update ∈ updates, update.id = id := by
    intro id member
    rw [mem_keys_iff_registers, registers, writeAll_isSome, ← mem_keys_iff_registers] at member
    refine member.imp_right ?_
    rintro ⟨write, writeMem, rfl⟩
    obtain ⟨update, updateMem, rfl⟩ := List.mem_map.mp writeMem
    exact ⟨update, updateMem, rfl⟩
  refine ⟨⟨coherent, fun id member => ?_⟩, ?_⟩
  · rcases known id member with earlier | ⟨update, updateMem, rfl⟩
    · exact held.short id earlier
    · exact (each update updateMem).short
  · refine le_trans (List.Subperm.length_le (next.revisions.nodup_keys.subperm fun id member => ?_))
      within
    rw [List.mem_dedup, List.mem_append]
    refine (known id member).imp_right ?_
    rintro ⟨update, updateMem, rfl⟩
    exact List.mem_map_of_mem updateMem

theorem shortIds_reorder (current next : PushdownFilters) (order : List Text)
    (held : ShortIds current) (arranged : current.withPredicateOrder order = .ok next) :
    ShortIds next := by
  obtain ⟨perm, rest⟩ := withPredicateOrder_ok current order next held.coherent arranged
  have sameRevisions : next.revisions = current.revisions := by rw [rest]
  refine ⟨coherent_of_perm current next held.coherent perm sameRevisions, ?_⟩
  rw [sameRevisions]
  exact held.short

section

variable (deserializeBatch : DeserializeBatch)

theorem shortIds_reachable (batch : Batch) (options : DeserializeFilterOptions)
    (snapshot current : PushdownFilters)
    (accepted : deserializeFilters batch options = .ok snapshot)
    (reachable : Reachable deserializeBatch snapshot current) : ShortIds current := by
  obtain ⟨coherent, short⟩ := snapshot_coherent batch options snapshot accepted
  exact reachable.invariant deserializeBatch ShortIds
    (fun current batch next held accepted => (shortIds_delta current next batch held accepted).1)
    (fun current order next held arranged => shortIds_reorder current next order held arranged)
    snapshot current ⟨coherent, short⟩

private theorem considerEach_decoded (carried : List Bytes) (wanted : List Text)
    (retained : List Bytes)
    (success : considerEach deserializeBatch carried wanted = .ok retained) :
    ∀ bytes ∈ retained, ∃ batch, decodeFilterDelta deserializeBatch bytes = .ok batch := by
  induction carried generalizing wanted retained with
  | nil =>
      cases success
      exact fun _ member => absurd member List.not_mem_nil
  | cons first rest ih =>
      obtain ⟨batch, decoded, success⟩ := except_bind_ok _ _ _ success
      obtain ⟨keys, _, success⟩ := except_bind_ok _ _ _ success
      obtain ⟨others, othersOk, success⟩ := except_bind_ok _ _ _ success
      cases success
      have earlier := ih _ others othersOk
      intro bytes member
      split at member
      · rcases List.mem_cons.mp member with rfl | member
        · exact ⟨batch, decoded⟩
        · exact earlier bytes member
      · exact earlier bytes member

/-- What a scan records fits the token. -/
theorem fitsToken_recorded (current : PushdownFilters) (history : FilterDeltaHistory)
    (bytes : Bytes) (recorded : RecordedDelta) (held : ShortIds current)
    (success : recordFilterDelta deserializeBatch current history bytes = .ok recorded) :
    FitsToken recorded.history := by
  obtain ⟨batch, _, success⟩ := except_bind_ok _ _ _ success
  obtain ⟨filters, accepted, success⟩ := except_bind_ok _ _ _ success
  obtain ⟨deltas, considered, success⟩ := except_bind_ok _ _ _ success
  cases success
  obtain ⟨nextHeld, within⟩ := shortIds_delta current filters batch held accepted
  have liveIds : filters.predicates.map (·.id) ⊆ filters.revisions.keys := by
    intro id member
    obtain ⟨predicate, predicateMem, rfl⟩ := List.mem_map.mp member
    rw [OrderedMap.mem_keys_iff, nextHeld.coherent.current predicate predicateMem]
    rfl
  have limit : maxPredicateIds < 256 ^ 4 := by decide
  constructor
  · have retained := considerEach_eq deserializeBatch _ _ _ considered
    have few : deltas.length ≤ (wantedKeys filters).length := by
      rw [retained]
      exact length_compact_le _ _ _
    have keys : (wantedKeys filters).length = filters.revisions.keys.length := by
      simp [wantedKeys, OrderedMap.keys]
    exact lt_of_le_of_lt (le_trans few (keys.trans_le within)) limit
  · intro document member
    obtain ⟨batch, decoded⟩ := considerEach_decoded deserializeBatch _ _ _ considered document member
    exact lt_of_le_of_lt (decodeFilterDelta_length deserializeBatch document batch decoded) (by decide)
  · exact lt_of_le_of_lt
      (le_trans (nextHeld.coherent.nodup.subperm liveIds).length_le within) limit
  · exact fun id member => lt_of_le_of_lt (nextHeld.short id (liveIds member)) (by decide)

/-- A recorded history with a delta comes back from the token when UTF-8 gives its ids
back. Cut short, but not to nothing, or extended, the token is refused. -/
theorem recorded_history_round_trip (batch : Batch) (options : DeserializeFilterOptions)
    (snapshot current : PushdownFilters) (history : FilterDeltaHistory) (bytes : Bytes)
    (recorded : RecordedDelta) (accepted : deserializeFilters batch options = .ok snapshot)
    (reachable : Reachable deserializeBatch snapshot current)
    (recording : recordFilterDelta deserializeBatch current history bytes = .ok recorded)
    (carries : recorded.history.deltas ≠ []) :
    ((∀ id ∈ recorded.history.order, SurvivesUtf8 id) →
        decodeFilterHistory (encodeFilterHistory (some recorded.history)) = .ok recorded.history) ∧
      ∃ code, encodeFilterHistory (some recorded.history) = some code ∧
        (∀ kept, kept <+: code → kept ≠ code → kept ≠ [] →
          Refuses (decodeFilterHistory (some kept))) ∧
        ∀ extra, extra ≠ [] → Refuses (decodeFilterHistory (some (code ++ extra))) := by
  have fits := fitsToken_recorded deserializeBatch current history bytes recorded
    (shortIds_reachable deserializeBatch batch options snapshot current accepted reachable) recording
  have encoded := encodeFilterHistory_body recorded.history carries
  refine ⟨fun survive => ?_, _, encoded, fun kept isPrefix shorter nonempty => ?_,
    fun extra nonempty => ?_⟩
  · exact decodeFilterHistory_encode recorded.history carries fits.few fits.short fits.fewIds
      fits.shortIds survive
  · exact decodeFilterHistory_cut recorded.history fits _ kept encoded isPrefix shorter nonempty
  · exact decodeFilterHistory_extended recorded.history fits _ extra encoded nonempty

end

/-- The first delta of a scan, recorded over the empty snapshot. -/
def recordFirst (deserializeBatch : DeserializeBatch) :
    Except Fault (PushdownFilters × RecordedDelta) := do
  let snapshot ← deserializeFilters (snapshotOf []) flagOptions
  let recorded ← recordFilterDelta deserializeBatch snapshot emptyFilterHistory [1]
  .ok (snapshot, recorded)

private theorem recordFirst_ok (deserializeBatch : DeserializeBatch) (snapshot : PushdownFilters)
    (recorded : RecordedDelta) (success : recordFirst deserializeBatch = .ok (snapshot, recorded)) :
    deserializeFilters (snapshotOf []) flagOptions = .ok snapshot ∧
      recordFilterDelta deserializeBatch snapshot emptyFilterHistory [1] = .ok recorded := by
  obtain ⟨_, accepted, success⟩ := except_bind_ok _ _ _ success
  obtain ⟨_, recording, success⟩ := except_bind_ok _ _ _ success
  cases success
  exact ⟨accepted, recording⟩

theorem recorded_history_round_trip_sample : ∃ recorded : RecordedDelta,
    recorded.history.order = [text "a"] ∧
      decodeFilterHistory (encodeFilterHistory (some recorded.history)) = .ok recorded.history := by
  have run : (recordFirst staleReadable).map (fun run : PushdownFilters × RecordedDelta =>
      (run.2.history.deltas, run.2.history.order)) = .ok ([[1]], [text "a"]) := by
    decide +kernel
  cases performed : recordFirst staleReadable with
  | error fault =>
      rw [performed] at run
      cases run
  | ok run' =>
      obtain ⟨accepted, recording⟩ := recordFirst_ok _ _ _ performed
      rw [performed] at run
      injection run with outcome
      injection outcome with deltas order
      have law := recorded_history_round_trip staleReadable (snapshotOf []) flagOptions run'.1 run'.1
        emptyFilterHistory [1] run'.2 accepted .start recording
        (by rw [deltas]; exact List.cons_ne_nil _ _)
      refine ⟨run'.2, order, law.1 fun id member => ?_⟩
      rw [order] at member
      rw [List.mem_singleton.mp member]
      exact ⟨by decide +kernel, by decide +kernel⟩

/-- A delta whose predicate id starts with a byte order mark. -/
def markedDelta : DeserializeBatch
  | [1] => .ok (deltaOf [flagUpsert "\ufeffa" "5" "flag"])
  | _ => .error .typeError

/-- The token of a recorded history cut to nothing reads as the empty history, and in full
it reads without the mark of the id. -/
theorem cut_and_marked_histories : ∃ snapshot recorded code,
    deserializeFilters (snapshotOf []) flagOptions = .ok snapshot ∧
      recordFilterDelta markedDelta snapshot emptyFilterHistory [1] = .ok recorded ∧
      recorded.history.deltas = [[1]] ∧ recorded.history.order = [0xfeff :: text "a"] ∧
      encodeFilterHistory (some recorded.history) = some code ∧ [] <+: code ∧ [] ≠ code ∧
      decodeFilterHistory (some []) = .ok emptyFilterHistory ∧
      (decodeFilterHistory (some code)).map (·.order) = .ok [text "a"] := by
  have run : (recordFirst markedDelta).map (fun run : PushdownFilters × RecordedDelta =>
      (run.2.history.deltas, run.2.history.order,
        (decodeFilterHistory (encodeFilterHistory (some run.2.history))).map (·.order))) =
      .ok ([[1]], [0xfeff :: text "a"], .ok [text "a"]) := by
    decide +kernel
  cases performed : recordFirst markedDelta with
  | error fault =>
      rw [performed] at run
      cases run
  | ok run' =>
      obtain ⟨accepted, recording⟩ := recordFirst_ok _ _ _ performed
      rw [performed] at run
      injection run with outcome
      injection outcome with deltas outcome
      injection outcome with order decoded
      have encoded := encodeFilterHistory_body run'.2.history
        (by rw [deltas]; exact List.cons_ne_nil _ _)
      rw [encoded] at decoded
      exact ⟨run'.1, run'.2, _, accepted, recording, deltas, order, encoded, List.nil_prefix,
        (List.cons_ne_nil _ _).symm, rfl, decoded⟩

end VgiWorker.FilterPushdown
