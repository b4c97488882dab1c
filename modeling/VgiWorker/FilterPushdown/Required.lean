import VgiWorker.FilterPushdown.Replay

/-!
# Required predicates

Deltas, reorderings and history replays keep the required predicates of the
snapshot, and every row the filters keep satisfies each of them.
-/

set_option autoImplicit false

namespace VgiWorker.FilterPushdown

open VgiWorker.Js VgiWorker.Arrow VgiWorker.LastWriter FilterParser

/-! ## The rows a filter set keeps -/

private theorem mapM_ok_getElem? {α β : Type} (step : α → Except Fault β) (inputs : List α)
    (outputs : List β) (success : inputs.mapM step = .ok outputs) (index : Nat) (output : β)
    (found : outputs[index]? = some output) :
    ∃ input, inputs[index]? = some input ∧ step input = .ok output := by
  induction inputs generalizing outputs index with
  | nil =>
      cases success
      cases found
  | cons input rest ih =>
      rw [List.mapM_cons] at success
      obtain ⟨first, firstOk, success⟩ := except_bind_ok _ _ _ success
      obtain ⟨others, othersOk, success⟩ := except_bind_ok _ _ _ success
      cases success
      cases index with
      | zero =>
          cases found
          exact ⟨input, rfl, firstOk⟩
      | succ index => exact ih others othersOk index found

theorem evaluateRows_ok (context : EvaluationContext) (batch : Batch)
    (expression : FilterExpression) (values : List Value)
    (success : PushdownFilters.evaluateRows context batch expression = .ok values) (row : Nat)
    (value : Value) (found : values[row]? = some value) :
    evaluateExpression batch row context expression = .ok value := by
  obtain ⟨index, inRange, evaluated⟩ := mapM_ok_getElem? _ _ values success row value found
  obtain ⟨_, same⟩ := List.getElem?_eq_some_iff.mp inRange
  rw [List.getElem_range] at same
  rwa [← same] at evaluated

/-- A required predicate that takes part in evaluation is TRUE on every row kept. -/
theorem evaluateFrom_kept (context : EvaluationContext) (batch : Batch)
    (predicates : List FilterPredicate) (mask result : List Bool)
    (success : PushdownFilters.evaluateFrom context batch predicates mask = .ok result) (row : Nat)
    (kept : result[row]? = some true) :
    mask[row]? = some true ∧ ∀ predicate ∈ predicates, predicate.mode = .required →
      isSkipped predicate.expression = false →
      ∃ value, evaluateExpression batch row context predicate.expression = .ok value ∧
        isTrueValue value = true := by
  induction predicates generalizing mask with
  | nil =>
      cases success
      exact ⟨kept, fun _ member => absurd member List.not_mem_nil⟩
  | cons first rest ih =>
      rw [PushdownFilters.evaluateFrom] at success
      split at success
      · rename_i skipped
        obtain ⟨maskKept, others⟩ := ih mask success
        refine ⟨maskKept, fun predicate member required evaluated => ?_⟩
        rcases List.mem_cons.mp member with rfl | inRest
        · rw [skipped] at evaluated
          cases evaluated
        · exact others predicate inRest required evaluated
      · split at success
        · rename_i values rowsOk
          obtain ⟨narrowKept, others⟩ := ih _ success
          obtain ⟨maskRow, value, maskFound, valueFound, both⟩ :
              ∃ maskRow value, mask[row]? = some maskRow ∧ values[row]? = some value ∧
                (maskRow && isTrueValue value) = true := by
            rw [PushdownFilters.narrowMask, List.getElem?_zipWith_eq_some] at narrowKept
            exact narrowKept
          obtain ⟨maskTrue, valueTrue⟩ := Bool.and_eq_true_iff.mp both
          refine ⟨by rw [maskFound, maskTrue], fun predicate member required evaluated => ?_⟩
          rcases List.mem_cons.mp member with rfl | inRest
          · exact ⟨value, evaluateRows_ok context batch _ values rowsOk row value valueFound, valueTrue⟩
          · exact others predicate inRest required evaluated
        · split at success
          · rename_i advisory
            obtain ⟨maskKept, others⟩ := ih mask success
            refine ⟨maskKept, fun predicate member required evaluated => ?_⟩
            rcases List.mem_cons.mp member with rfl | inRest
            · rw [required] at advisory
              cases advisory
            · exact others predicate inRest required evaluated
          · cases success

/-! ## The invariant -/

section

variable (deserializeBatch : DeserializeBatch)

/-- The filter sets one scan can reach from its snapshot. -/
inductive Reachable (snapshot : PushdownFilters) : PushdownFilters → Prop
  | start : Reachable snapshot snapshot
  | delta (current : PushdownFilters) (batch : Batch) (next : PushdownFilters)
      (earlier : Reachable snapshot current) (accepted : current.applyDelta batch = .ok next) :
      Reachable snapshot next
  | reorder (current : PushdownFilters) (order : List Text) (next : PushdownFilters)
      (earlier : Reachable snapshot current)
      (arranged : current.withPredicateOrder order = .ok next) : Reachable snapshot next
  | replay (current : PushdownFilters) (history : FilterDeltaHistory) (next : PushdownFilters)
      (earlier : Reachable snapshot current)
      (replayed : replayFilterHistory deserializeBatch (some current) (some history) =
        .ok (some next)) : Reachable snapshot next

/-- What deltas and reorderings keep holds of all filters a scan can reach. -/
theorem Reachable.invariant (holds : PushdownFilters → Prop)
    (delta : ∀ current batch next, holds current → current.applyDelta batch = .ok next → holds next)
    (reorder : ∀ current order next, holds current →
      current.withPredicateOrder order = .ok next → holds next)
    (snapshot current : PushdownFilters) (start : holds snapshot)
    (reachable : Reachable deserializeBatch snapshot current) : holds current := by
  have deltas : ∀ (documents : List Bytes) (current applied : PushdownFilters), holds current →
      replayDeltas deserializeBatch current documents = .ok applied → holds applied := by
    intro documents
    induction documents with
    | nil =>
        intro current applied held replayed
        cases replayed
        exact held
    | cons bytes rest ih =>
        intro current applied held replayed
        obtain ⟨batch, _, replayed⟩ := except_bind_ok _ _ _ replayed
        obtain ⟨first, accepted, replayed⟩ := except_bind_ok _ _ _ replayed
        exact ih first applied (delta current batch first held accepted) replayed
  induction reachable with
  | start => exact start
  | delta current batch next _ accepted ih => exact delta current batch next ih accepted
  | reorder current order next _ arranged ih => exact reorder current order next ih arranged
  | replay current history next _ replayed ih =>
      unfold replayFilterHistory at replayed
      by_cases nothing : history.deltas = []
      · simp only [if_pos nothing] at replayed
        cases replayed
        exact ih
      · simp only [if_neg nothing] at replayed
        obtain ⟨applied, appliedOk, replayed⟩ := except_bind_ok _ _ _ replayed
        cases arranged : applied.withPredicateOrder history.order with
        | error fault =>
            rw [arranged] at replayed
            cases replayed
        | ok result =>
            rw [arranged] at replayed
            cases replayed
            exact reorder applied history.order next
              (deltas history.deltas current applied ih appliedOk) arranged

structure KeepsRequired (snapshot current : PushdownFilters) : Prop where
  coherent : current.Coherent
  context : current.evaluationContext = snapshot.evaluationContext
  requiredIds : current.requiredIds = snapshot.requiredIds
  required : ∀ predicate, predicate.mode = .required →
    (predicate ∈ current.predicates ↔ predicate ∈ snapshot.predicates)

/-- In an accepted snapshot the required ids are those of the required predicates. -/
theorem mem_requiredIds (batch : Batch) (options : DeserializeFilterOptions)
    (snapshot : PushdownFilters) (accepted : deserializeFilters batch options = .ok snapshot)
    (predicate : FilterPredicate) (member : predicate ∈ snapshot.predicates)
    (required : predicate.mode = .required) : predicate.id ∈ snapshot.requiredIds := by
  obtain ⟨parser, _, read⟩ := deserializeFilters_ok batch options snapshot accepted
  obtain ⟨_, _, _, requiredIds⟩ := snapshot_ok parser snapshot read
  rw [requiredIds]
  exact List.mem_map_of_mem (List.mem_filter.mpr ⟨member, by simp [required]⟩)

theorem keepsRequired_delta (snapshot current next : PushdownFilters) (batch : Batch)
    (ids : ∀ predicate ∈ snapshot.predicates, predicate.mode = .required →
      predicate.id ∈ snapshot.requiredIds)
    (keeps : KeepsRequired snapshot current) (accepted : current.applyDelta batch = .ok next) :
    KeepsRequired snapshot next := by
  obtain ⟨parser, entries, updates, after, _, sameContext, _, read, _, result⟩ :=
    applyDelta_ok current batch next accepted
  obtain ⟨nodup, each⟩ := readUpdates_fresh parser current entries 0 [] 0 after updates read
  obtain ⟨nextCoherent, registers⟩ :=
    applyUpdates_registers parser current updates keeps.coherent nodup each
  rw [← result] at nextCoherent registers
  refine ⟨nextCoherent, ?_, ?_, fun predicate required => ?_⟩
  · rw [result]
    exact sameContext.trans keeps.context
  · rw [result]
    exact keeps.requiredIds
  · rw [← keeps.required predicate required, mem_predicates_iff next nextCoherent, registers]
    constructor
    · intro held
      rw [mem_predicates_iff current keeps.coherent]
      rcases writeAll_cases current.registers (updates.map Update.toWrite) predicate.id with
        ⟨unchanged, _⟩ | ⟨before, winner, rest, split, _, _, _, _, won⟩
      · rwa [unchanged] at held
      · -- A winning update would install this predicate, but what updates install is advisory.
        rw [won] at held
        injection held with pair
        injection pair with _ installed
        have member : winner ∈ updates.map Update.toWrite := by
          rw [split]
          exact List.mem_append_right _ List.mem_cons_self
        obtain ⟨update, updateMem, rfl⟩ := List.mem_map.mp member
        obtain ⟨_, _, advisory⟩ := (each update updateMem).coherent predicate installed
        rw [required] at advisory
        cases advisory
    · intro member
      have requiredId : predicate.id ∈ current.requiredIds := by
        rw [keeps.requiredIds]
        exact ids predicate ((keeps.required predicate required).mp member) required
      rw [writeAll_unwritten, ← mem_predicates_iff current keeps.coherent]
      · exact member
      · intro write writeMem sameId
        obtain ⟨update, updateMem, rfl⟩ := List.mem_map.mp writeMem
        have same : update.id = predicate.id := sameId
        exact absurd (same ▸ requiredId) (each update updateMem).optional

theorem keepsRequired_reorder (snapshot current next : PushdownFilters) (order : List Text)
    (keeps : KeepsRequired snapshot current)
    (arranged : current.withPredicateOrder order = .ok next) : KeepsRequired snapshot next := by
  obtain ⟨perm, rest⟩ := withPredicateOrder_ok current order next keeps.coherent arranged
  have sameRevisions : next.revisions = current.revisions := by rw [rest]
  refine ⟨coherent_of_perm current next keeps.coherent perm sameRevisions, ?_, ?_, ?_⟩
  · rw [rest]
    exact keeps.context
  · rw [rest]
    exact keeps.requiredIds
  · exact fun predicate required => perm.mem_iff.trans (keeps.required predicate required)

theorem keepsRequired_reachable (batch : Batch) (options : DeserializeFilterOptions)
    (snapshot current : PushdownFilters)
    (accepted : deserializeFilters batch options = .ok snapshot)
    (reachable : Reachable deserializeBatch snapshot current) :
    KeepsRequired snapshot current := by
  have ids := mem_requiredIds batch options snapshot accepted
  exact reachable.invariant deserializeBatch (KeepsRequired snapshot)
    (fun current batch next keeps accepted =>
      keepsRequired_delta snapshot current next batch ids keeps accepted)
    (fun current order next keeps arranged =>
      keepsRequired_reorder snapshot current next order keeps arranged)
    snapshot current
    ⟨(snapshot_coherent batch options snapshot accepted).1, rfl, rfl, fun _ _ => Iff.rfl⟩

/-- A required predicate is never skipped: a runtime filter cannot be required. -/
theorem not_isSkipped_of_required (context : EvaluationContext) (expression : FilterExpression)
    (valid : validateRoot context .required expression = .ok ()) :
    isSkipped expression = false := by
  unfold validateRoot at valid
  obtain ⟨_, _, valid⟩ := except_bind_ok _ _ _ valid
  obtain ⟨_, notRuntime, _⟩ := except_bind_ok _ _ _ valid
  have root : isRuntimeFilter expression ≠ true := fun isRuntime =>
    refuse_ok _ _ _ notRuntime ⟨isRuntime, nofun⟩
  cases expression with
  | runtimeFilter _ _ _ _ _ _ _ => exact absurd rfl root
  | _ => rfl

/-- Whatever deltas, reorderings and replays a scan goes through, its required predicates
stay those of the snapshot, and every row it keeps satisfies each of them. -/
theorem required_never_weakened (batch : Batch) (options : DeserializeFilterOptions)
    (snapshot current : PushdownFilters)
    (accepted : deserializeFilters batch options = .ok snapshot)
    (reachable : Reachable deserializeBatch snapshot current) :
    (current.predicates.filter (·.mode == .required)).Perm
        (snapshot.predicates.filter (·.mode == .required)) ∧
      current.requiredIds = (snapshot.predicates.filter (·.mode == .required)).map (·.id) ∧
      ∀ rows mask row, current.evaluate rows = .ok mask → mask[row]? = some true →
        ∀ predicate ∈ snapshot.predicates, predicate.mode = .required →
          ∃ value, evaluateExpression rows row snapshot.evaluationContext predicate.expression =
            .ok value ∧ isTrueValue value = true := by
  have keeps :=
    keepsRequired_reachable deserializeBatch batch options snapshot current accepted reachable
  obtain ⟨parser, _, read⟩ := deserializeFilters_ok batch options snapshot accepted
  obtain ⟨nodup, each, _, requiredIds⟩ := snapshot_ok parser snapshot read
  refine ⟨?_, keeps.requiredIds.trans requiredIds, ?_⟩
  · have currentNodup := keeps.coherent.nodup.of_map
    have snapshotNodup := nodup.of_map
    refine (List.perm_ext_iff_of_nodup (currentNodup.filter _) (snapshotNodup.filter _)).mpr ?_
    intro predicate
    rw [List.mem_filter, List.mem_filter, beq_iff_eq]
    constructor
    · exact fun ⟨member, required⟩ => ⟨(keeps.required predicate required).mp member, required⟩
    · exact fun ⟨member, required⟩ => ⟨(keeps.required predicate required).mpr member, required⟩
  · intro rows mask row evaluated kept predicate member required
    have valid := (each predicate member).2.2
    rw [required] at valid
    obtain ⟨_, others⟩ := evaluateFrom_kept _ rows current.predicates _ mask evaluated row kept
    rw [← keeps.context]
    exact others predicate ((keeps.required predicate required).mpr member) required
      (not_isSkipped_of_required _ _ valid)

end

/-- A required predicate `p`, an advisory one upserted after it, then arranged before it. -/
def requiredRun : Except Fault (PushdownFilters × PushdownFilters × PushdownFilters) := do
  let snapshot ← deserializeFilters
    (snapshotOf [objectText (flagMembers "p" "0" "required" "flag")]) flagOptions
  let upserted ← snapshot.applyDelta (deltaOf [flagUpsert "a" "5" "flag"])
  let arranged ← upserted.withPredicateOrder [text "a", text "p"]
  .ok (snapshot, upserted, arranged)

/-- A batch whose flag is true on its first row and false on its second. -/
def flagRows : Batch where
  schema := flagOptions.outputSchema
  columns := [[.bool true, .bool false]]
  numRows := 2
  metadata := none

theorem required_never_weakened_sample : ∃ snapshot current : PushdownFilters,
    current.predicates.map (·.id) = [text "a", text "p"] ∧
      current.evaluate flagRows = .ok [true, false] ∧ snapshot.requiredIds = [text "p"] ∧
      (current.predicates.filter (·.mode == .required)).Perm
        (snapshot.predicates.filter (·.mode == .required)) := by
  have run : requiredRun.map (fun run => (run.2.2.predicates.map (·.id),
      run.2.2.evaluate flagRows, run.1.requiredIds)) =
      .ok ([text "a", text "p"], .ok [true, false], [text "p"]) := by
    decide +kernel
  cases performed : requiredRun with
  | error fault =>
      rw [performed] at run
      cases run
  | ok run' =>
      rw [performed] at run
      injection run with outcome
      injection outcome with ids outcome
      injection outcome with mask requiredIds
      obtain ⟨snapshot, accepted, performed⟩ := except_bind_ok _ _ _ performed
      obtain ⟨upserted, upsertedOk, performed⟩ := except_bind_ok _ _ _ performed
      obtain ⟨arranged, arrangedOk, performed⟩ := except_bind_ok _ _ _ performed
      cases performed
      have reachable : Reachable staleReadable snapshot arranged :=
        .reorder upserted _ arranged (.delta snapshot _ upserted .start upsertedOk) arrangedOk
      obtain ⟨perm, _, _⟩ :=
        required_never_weakened staleReadable _ flagOptions snapshot arranged accepted reachable
      exact ⟨snapshot, arranged, ids, mask, requiredIds, perm⟩

end VgiWorker.FilterPushdown
