import VgiWorker.FilterPushdown.Replay

/-!
# Deltas are last-writer-wins by revision

A sequence of accepted deltas writes every update it carries to the registers,
whether or not the update was stale when it arrived. The order and the number of
deliveries therefore do not matter.
-/

set_option autoImplicit false

namespace VgiWorker.FilterPushdown

open VgiWorker.Js VgiWorker.Arrow VgiWorker.LastWriter

namespace FilterParser

/-- What an update reads to by itself, which a stale update need not do. -/
def content (parser : FilterParser) (head : UpdateHeader) (location : Text) :
    Option (Option FilterPredicate) :=
  match parser.readOperation head location 0 with
  | .ok (predicate, _) => some predicate
  | .error _ => none

/-- The id, the revision and the content of every update of a delta, stale ones included. -/
def headerWrites (parser : FilterParser) (prior : PushdownFilters) :
    List Json → Nat → List Text →
      Except Fault (List (Write Text Nat (Option (Option FilterPredicate))))
  | [], _, _ => .ok []
  | entry :: rest, index, seen => do
      let location := entryLocation "updates" index
      let head ← updateHeader prior seen entry location
      let others ← headerWrites parser prior rest (index + 1) (head.id :: seen)
      .ok (⟨head.id, head.revision, parser.content head location⟩ :: others)

theorem content_of_read (parser : FilterParser) (head : UpdateHeader) (location : Text)
    (nodes after : Nat) (predicate : Option FilterPredicate)
    (success : parser.readOperation head location nodes = .ok (predicate, after)) :
    parser.content head location = some predicate := by
  obtain ⟨_, lower⟩ := startsLower_readOperation parser head location nodes predicate after success
  unfold content
  rw [lower 0 (Nat.zero_le _)]

/-- The updates a delta installs are its fresh header writes, each with the content it reads to. -/
theorem readUpdates_headerWrites (parser : FilterParser) (snapshot current : PushdownFilters)
    (sameRequired : current.requiredIds = snapshot.requiredIds) (entries : List Json) (index : Nat)
    (seen : List Text) (nodes after : Nat) (updates : List Update)
    (success : parser.readUpdates current entries index seen nodes = .ok (updates, after)) :
    ∃ writes, parser.headerWrites snapshot entries index seen = .ok writes ∧
      (writes.map (·.id)).Nodup ∧ (∀ write ∈ writes, write.id ∉ seen) ∧
      (updates.map Update.toWrite).map (Write.mapContent some) =
        writes.filter fun write => !isStale current.revisions write.id write.revision := by
  induction entries generalizing index seen nodes updates with
  | nil =>
      cases success
      exact ⟨[], rfl, List.nodup_nil, fun _ member => absurd member List.not_mem_nil, rfl⟩
  | cons entry rest ih =>
      have extend (head : UpdateHeader)
          (writes : List (Write Text Nat (Option (Option FilterPredicate))))
          (headOk : updateHeader current seen entry (entryLocation "updates" index) = .ok head)
          (othersOk : parser.headerWrites snapshot rest (index + 1) (head.id :: seen) = .ok writes)
          (nodup : (writes.map (·.id)).Nodup)
          (unseen : ∀ write ∈ writes, write.id ∉ head.id :: seen) :
          parser.headerWrites snapshot (entry :: rest) index seen =
              .ok (⟨head.id, head.revision,
                parser.content head (entryLocation "updates" index)⟩ :: writes) ∧
            (head.id :: writes.map (·.id)).Nodup ∧ head.id ∉ seen ∧
            ∀ write ∈ writes, write.id ∉ seen := by
        obtain ⟨_, _, headUnseen, _⟩ := updateHeader_ok current seen entry _ head headOk
        rw [updateHeader_congr current snapshot _ _ _ sameRequired] at headOk
        refine ⟨?_, ?_, headUnseen, fun write member inSeen =>
          unseen write member (List.mem_cons_of_mem _ inSeen)⟩
        · rw [headerWrites]
          simp only [headOk, except_ok_bind, othersOk]
        · rw [List.nodup_cons]
          refine ⟨fun member => ?_, nodup⟩
          obtain ⟨write, writeMem, sameId⟩ := List.mem_map.mp member
          exact unseen write writeMem (sameId ▸ List.mem_cons_self)
      obtain ⟨head, headOk, ⟨stale, skipped⟩ | ⟨fresh, predicate, middle, others, readOk, othersOk, rfl⟩⟩ :=
        readUpdates_cons parser current entry rest index seen nodes after updates success
      · obtain ⟨writes, writesOk, nodup, unseen, filtered⟩ := ih _ _ _ _ skipped
        obtain ⟨whole, wholeNodup, headUnseen, restUnseen⟩ :=
          extend head writes headOk writesOk nodup unseen
        refine ⟨_, whole, wholeNodup, ?_, ?_⟩
        · exact List.forall_mem_cons.mpr ⟨headUnseen, restUnseen⟩
        · rw [filtered, List.filter_cons_of_neg (by simp [stale])]
      · obtain ⟨writes, writesOk, nodup, unseen, filtered⟩ := ih _ _ _ _ othersOk
        obtain ⟨whole, wholeNodup, headUnseen, restUnseen⟩ :=
          extend head writes headOk writesOk nodup unseen
        refine ⟨_, whole, wholeNodup, ?_, ?_⟩
        · exact List.forall_mem_cons.mpr ⟨headUnseen, restUnseen⟩
        · rw [List.filter_cons_of_pos (by simp [fresh]), ← filtered,
            content_of_read parser head _ nodes middle predicate readOk]
          rfl

end FilterParser

open FilterParser

/-- Every update a delta carries, as a write to the registers of the scan. -/
def deltaWrites (snapshot : PushdownFilters) (batch : Batch) :
    List (Write Text Nat (Option (Option FilterPredicate))) :=
  match (do
      let parser ← FilterParser.construct batch snapshot.options
      let entries ← parser.header "delta" "updates"
      parser.headerWrites snapshot entries 0 []) with
  | .ok writes => writes
  | .error _ => []

/-- The registers, holding contents that read. -/
def readRegisters (filters : PushdownFilters) :
    Registers Text Nat (Option (Option FilterPredicate)) :=
  mapContents some filters.registers

theorem applyDelta_writes (snapshot current next : PushdownFilters) (batch : Batch)
    (same : SameScan snapshot current) (coherent : current.Coherent)
    (accepted : current.applyDelta batch = .ok next) :
    SameScan snapshot next ∧ next.Coherent ∧
      readRegisters next = writeAll (readRegisters current) (deltaWrites snapshot batch) := by
  obtain ⟨parser, entries, updates, after, constructed, sameContext, headed, read, _, result⟩ :=
    applyDelta_ok current batch next accepted
  obtain ⟨nodup, each⟩ := readUpdates_fresh parser current entries 0 [] 0 after updates read
  obtain ⟨nextCoherent, registers⟩ :=
    applyUpdates_registers parser current updates coherent nodup each
  rw [← result] at nextCoherent registers
  obtain ⟨writes, writesOk, writesNodup, _, filtered⟩ := readUpdates_headerWrites parser snapshot
    current same.requiredIds entries 0 [] 0 after updates read
  have deltaIs : deltaWrites snapshot batch = writes := by
    unfold deltaWrites
    rw [← same.options, constructed, except_ok_bind, headed, except_ok_bind, writesOk]
  refine ⟨?_, nextCoherent, ?_⟩
  · rw [result]
    exact ⟨sameContext.trans same.context, same.options, same.requiredIds⟩
  · have staleAgrees (write : Write Text Nat (Option (Option FilterPredicate))) :
        isStale current.revisions write.id write.revision =
          decide (Stale (readRegisters current write.id) write.revision) := by
      rw [Bool.eq_iff_iff, isStale_iff_stale, decide_eq_true_iff]
      exact (stale_mapContents some current.registers write.id write.revision).symm
    have freshWrites := writeAll_filter_fresh (readRegisters current) writes writesNodup
    simp only [← staleAgrees, ← filtered] at freshWrites
    rw [deltaIs, ← freshWrites, readRegisters, registers]
    exact (writeAll_mapContents some current.registers (updates.map Update.toWrite)).symm

/-- Apply the deltas of a sequence in turn. -/
def PushdownFilters.applyDeltas (filters : PushdownFilters) :
    List Batch → Except Fault PushdownFilters
  | [] => .ok filters
  | batch :: rest => do
      let next ← filters.applyDelta batch
      next.applyDeltas rest

theorem applyDeltas_writes (snapshot current result : PushdownFilters) (deltas : List Batch)
    (same : SameScan snapshot current) (coherent : current.Coherent)
    (accepted : current.applyDeltas deltas = .ok result) :
    readRegisters result =
      writeAll (readRegisters current) (deltas.flatMap (deltaWrites snapshot)) := by
  induction deltas generalizing current with
  | nil =>
      cases accepted
      rfl
  | cons batch rest ih =>
      obtain ⟨next, first, others⟩ := except_bind_ok _ _ _ accepted
      obtain ⟨nextSame, nextCoherent, written⟩ :=
        applyDelta_writes snapshot current next batch same coherent first
      rw [ih next nextSame nextCoherent others, written, List.flatMap_cons, writeAll_append]

/-- Two accepted sequences of the same deltas leave the same predicate, or the same
tombstone, at the same revision under every id: that of the greatest revision written. -/
theorem deltas_last_writer_wins (batch : Batch) (options : DeserializeFilterOptions)
    (snapshot firstResult secondResult : PushdownFilters) (first second : List Batch)
    (accepted : deserializeFilters batch options = .ok snapshot)
    (firstAccepted : snapshot.applyDeltas first = .ok firstResult)
    (secondAccepted : snapshot.applyDeltas second = .ok secondResult)
    (sameDeltas : ∀ delta, delta ∈ first ↔ delta ∈ second)
    (consistent : Consistent (first.flatMap (deltaWrites snapshot))) :
    firstResult.registers = secondResult.registers ∧
      ∀ id,
        (firstResult.registers id = snapshot.registers id ∧
          ∀ write ∈ first.flatMap (deltaWrites snapshot), write.id = id →
            Stale (snapshot.registers id) write.revision) ∨
        ∃ write ∈ first.flatMap (deltaWrites snapshot), write.id = id ∧
          ¬Stale (snapshot.registers id) write.revision ∧
          AtMost id write.revision (first.flatMap (deltaWrites snapshot)) ∧
          ∃ content, write.content = some content ∧
            firstResult.registers id = some (write.revision, content) := by
  have coherent := (snapshot_coherent batch options snapshot accepted).1
  have firstWrites :=
    applyDeltas_writes snapshot snapshot firstResult first ⟨rfl, rfl, rfl⟩ coherent firstAccepted
  have secondWrites :=
    applyDeltas_writes snapshot snapshot secondResult second ⟨rfl, rfl, rfl⟩ coherent secondAccepted
  have sameWrites : ∀ write, write ∈ first.flatMap (deltaWrites snapshot) ↔
      write ∈ second.flatMap (deltaWrites snapshot) := by
    intro write
    simp only [List.mem_flatMap, sameDeltas]
  refine ⟨?_, fun id => ?_⟩
  · have sameRegisters : readRegisters firstResult = readRegisters secondResult := by
      rw [firstWrites, secondWrites]
      exact writeAll_eq_of_mem_iff _ _ _ sameWrites consistent
    exact funext fun id => mapContents_injective some (Option.some_injective _) _ _ id
      (congrFun sameRegisters id)
  · have atId := congrFun firstWrites id
    have staleIff (revision : Nat) := stale_mapContents some snapshot.registers id revision
    rcases writeAll_greatest (readRegisters snapshot) (first.flatMap (deltaWrites snapshot)) id with
      ⟨unchanged, allStale⟩ | ⟨write, writeMem, writeId, fresh, bound, won⟩
    · refine Or.inl ⟨?_, fun write member sameId => (staleIff _).mp (allStale write member sameId)⟩
      rw [unchanged] at atId
      exact mapContents_injective some (Option.some_injective _) _ _ id atId
    · refine Or.inr ⟨write, writeMem, writeId, fun stale => fresh ((staleIff _).mpr stale), bound, ?_⟩
      rw [won] at atId
      obtain ⟨⟨revision, content⟩, held, pair⟩ := Option.map_eq_some_iff.mp atId
      injection pair with sameRevision sameContent
      exact ⟨content, sameContent.symm, by rw [held, ← sameRevision]⟩

def removal (id revision : String) : Text :=
  objectText [memberText "operation" (quotedText "remove"), memberText "id" (quotedText id),
    memberText "revision" (text revision)]

/-- A removal that arrives after, and before, the upsert it supersedes. -/
def removalRun : Except Fault (PushdownFilters × PushdownFilters × PushdownFilters) := do
  let snapshot ← deserializeFilters (snapshotOf []) flagOptions
  let inOrder ← snapshot.applyDeltas [deltaOf [flagUpsert "a" "5" "flag"], deltaOf [removal "a" "6"]]
  let reversed ← snapshot.applyDeltas [deltaOf [removal "a" "6"], deltaOf [flagUpsert "a" "5" "flag"],
    deltaOf [removal "a" "6"]]
  .ok (snapshot, inOrder, reversed)

private theorem mem_redelivered (first second delta : Batch) :
    delta ∈ [first, second] ↔ delta ∈ [second, first, second] := by
  simp only [List.mem_cons, List.not_mem_nil]
  tauto

theorem deltas_last_writer_wins_sample : ∃ inOrder reversed : PushdownFilters,
    inOrder.revisions.entries = [(text "a", 6)] ∧ inOrder.predicates.map (·.id) = [] ∧
      inOrder.registers = reversed.registers := by
  have run : removalRun.map (fun run =>
      (run.2.1.revisions.entries, run.2.1.predicates.map (·.id),
        decide ((([deltaOf [flagUpsert "a" "5" "flag"], deltaOf [removal "a" "6"]].flatMap
          (deltaWrites run.1)).map fun write => (write.id, write.revision)).Nodup))) =
      .ok ([(text "a", 6)], [], true) := by
    decide +kernel
  cases performed : removalRun with
  | error fault =>
      rw [performed] at run
      cases run
  | ok run' =>
      rw [performed] at run
      injection run with outcome
      injection outcome with revisions outcome
      injection outcome with predicates nodup
      obtain ⟨snapshot, accepted, performed⟩ := except_bind_ok _ _ _ performed
      obtain ⟨inOrder, inOrderOk, performed⟩ := except_bind_ok _ _ _ performed
      obtain ⟨reversed, reversedOk, performed⟩ := except_bind_ok _ _ _ performed
      cases performed
      obtain ⟨same, _⟩ := deltas_last_writer_wins _ flagOptions snapshot inOrder reversed _ _ accepted
        inOrderOk reversedOk (mem_redelivered _ _)
        (consistent_of_nodup _ (of_decide_eq_true nodup))
      exact ⟨inOrder, reversed, revisions, predicates, same⟩

end VgiWorker.FilterPushdown
