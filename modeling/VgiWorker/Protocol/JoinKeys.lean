import VgiWorker.Data.KeptPositions
import VgiWorker.FilterPushdown.SetSources
import VgiWorker.Protocol.RequestWire

/-!
# Join keys and the references to them

The init request drops the join key entries it cannot decode, and the filter
parser counts what is left.
-/

set_option autoImplicit false

namespace VgiWorker.Protocol

open VgiWorker.Js VgiWorker.Arrow VgiWorker.FilterPushdown VgiWorker.KeptPositions

section

variable (runtime : Runtime)

/-- The entries of a request's list, as they arrive. -/
def joinKeyEntries (params : Row) : List Rich :=
  ((nonNull (rowMember params (text "join_keys"))).bind iterate?).getD []

/-- The positions in the request's list of the batches the parser is given. -/
def joinKeyPositions (params : Row) : List Nat :=
  positions (joinKeyOf runtime) (joinKeyEntries params)

/-- The entry at a position is neither null nor malformed. -/
def EntryDecodes (params : Row) (position : Nat) : Prop :=
  IsKept (joinKeyOf runtime) (joinKeyEntries params) position

theorem joinKeys_of_request (params : Row) (request : InitRequest)
    (received : deserializeInitRequest runtime params = .ok request) :
    request.joinKeys = (joinKeyEntries params).filterMap (joinKeyOf runtime) := by
  unfold deserializeInitRequest at received
  iterate 15 obtain ⟨_, _, received⟩ := except_bind_ok _ _ _ received
  cases received
  rfl

/-- An external set that the parser accepts evaluates against the entry its index names
exactly when every entry up to that one decodes. -/
theorem external_set_keeps_position_iff (params : Row) (request : InitRequest)
    (received : deserializeInitRequest runtime params = .ok request)
    (document : Batch) (options : DeserializeFilterOptions) (snapshot current : PushdownFilters)
    (accepted : deserializeFilters document
      { options with joinKeyBatches := some request.joinKeys } = .ok snapshot)
    (deserializeBatch : DeserializeBatch)
    (reachable : Reachable deserializeBatch snapshot current)
    (predicate : FilterPredicate) (live : predicate ∈ current.predicates)
    (batchIndex columnIndex : Nat) (columnName : Text) (values : List Value) (batch : Batch)
    (external : .external batchIndex columnIndex columnName values batch ∈
      predicate.expression.sets) :
    ∃ position column, (joinKeyPositions runtime params)[batchIndex]? = some position ∧
      ((joinKeyEntries params)[position]?).bind (joinKeyOf runtime) = some batch ∧
      batch.getChildAt columnIndex = some column ∧
      values = (List.range batch.numRows).map (readCanonicalValue column) ∧
      (position = batchIndex ↔ ∀ earlier ≤ batchIndex, EntryDecodes runtime params earlier) := by
  obtain ⟨held, sameOptions⟩ := keysOf_reachable deserializeBatch document _ snapshot current
    accepted reachable
  obtain ⟨found, field, column, _, isColumn, _, sameValues⟩ := held.sets predicate live _ external
  rw [sameOptions, joinKeys_of_request runtime params request received] at found
  obtain ⟨position, stands, source, _, exact⟩ :=
    getElem?_positions (joinKeyOf runtime) (joinKeyEntries params) batchIndex batch found
  exact ⟨position, column, stands, source, isColumn, sameValues, exact⟩

end

/-! ## Samples -/

/-- A batch of no rows. -/
def noRows : Batch := ⟨⟨[], .empty⟩, [], 0, none⟩

/-- The join keys that keep the rows whose flag is true. -/
def trueFlags : Batch where
  schema := flagOptions.outputSchema
  columns := [[.bool true]]
  numRows := 1
  metadata := none

/-- A library that reads `[1]` as no rows, `[2]` as the join keys and any schema as empty. -/
def sampleRuntime : Runtime where
  serializeBatch := fun _ => []
  deserializeBatch
    | [1] => .ok noRows
    | [2] => .ok trueFlags
    | _ => .error (text "malformed batch")
  serializeSchema := fun _ => []
  deserializeSchema := fun _ => .ok ⟨[], .empty⟩
  toUpperCase := id
  dateText := fun _ => []

def paramsWithKeys (entries : List Rich) : Row :=
  [(text "bind_call", .bytes [1]), (text "output_schema", .bytes [1]),
    (text "join_keys", .array entries)]

/-- A predicate that looks the flag up in the join keys at `index`. -/
def lookupDocument (index : String) : Batch :=
  snapshotOf [objectText
    [memberText "id" (quotedText "a"), memberText "revision" (text "0"),
      memberText "mode" (quotedText "required"), memberText "source" (quotedText "join"),
      memberText "expression" (objectText
        [memberText "node" (quotedText "in"),
          memberText "expression" (objectText
            [memberText "node" (quotedText "column_ref"), memberText "column_index" (text "0"),
              memberText "column_name" (quotedText "flag")]),
          memberText "set" (objectText
            [memberText "kind" (quotedText "external"), memberText "batch_index" (text index),
              memberText "column_index" (text "0"), memberText "column_name" (quotedText "flag")]),
          memberText "negated" (text "false")])]]

/-- The request is received and its document parsed. -/
def parseRequest (entries : List Rich) (index : String) :
    Except Fault (InitRequest × PushdownFilters) := do
  let request ← (deserializeInitRequest sampleRuntime (paramsWithKeys entries)).mapError
    fun _ => Fault.typeError
  let filters ← deserializeFilters (lookupDocument index)
    { flagOptions with joinKeyBatches := some request.joinKeys }
  .ok (request, filters)

def isExternalAt (index : Nat) : FilterSet → Bool
  | .external batchIndex _ _ _ _ => batchIndex == index
  | _ => false

def setsOf (filters : PushdownFilters) : List FilterSet :=
  filters.predicates.flatMap fun predicate => predicate.expression.sets

private theorem parseRequest_ok (entries : List Rich) (index : String) (request : InitRequest)
    (filters : PushdownFilters) (success : parseRequest entries index = .ok (request, filters)) :
    deserializeInitRequest sampleRuntime (paramsWithKeys entries) = .ok request ∧
      deserializeFilters (lookupDocument index)
        { flagOptions with joinKeyBatches := some request.joinKeys } = .ok filters := by
  obtain ⟨_, received, success⟩ := except_bind_ok _ _ _ success
  obtain ⟨_, accepted, success⟩ := except_bind_ok _ _ _ success
  cases success
  exact ⟨(except_mapError_ok _ _ _).mp received, accepted⟩

private theorem external_of_any (filters : PushdownFilters) (index : Nat)
    (found : (setsOf filters).any (isExternalAt index) = true) :
    ∃ predicate ∈ filters.predicates, ∃ columnIndex columnName values batch,
      FilterSet.external index columnIndex columnName values batch ∈ predicate.expression.sets := by
  obtain ⟨set, member, isExternal⟩ := List.any_eq_true.mp found
  obtain ⟨predicate, live, inSets⟩ := List.mem_flatMap.mp member
  cases set with
  | literal _ _ _ => cases isExternal
  | external batchIndex columnIndex columnName values batch =>
      have same : batchIndex = index := eq_of_beq isExternal
      subst same
      exact ⟨predicate, live, columnIndex, columnName, values, batch, inSets⟩

theorem external_set_keeps_position_sample : ∃ request snapshot batch,
    deserializeInitRequest sampleRuntime (paramsWithKeys [.bytes [2], .null]) = .ok request ∧
      deserializeFilters (lookupDocument "0")
        { flagOptions with joinKeyBatches := some request.joinKeys } = .ok snapshot ∧
      ((joinKeyEntries (paramsWithKeys [.bytes [2], .null]))[0]?).bind (joinKeyOf sampleRuntime) =
        some batch ∧
      ∃ columnIndex columnName values,
        .external 0 columnIndex columnName values batch ∈ setsOf snapshot := by
  have run : (parseRequest [.bytes [2], .null] "0").map
      (fun run => (setsOf run.2).any (isExternalAt 0)) = .ok true := by
    decide +kernel
  cases performed : parseRequest [.bytes [2], .null] "0" with
  | error fault =>
      rw [performed] at run
      cases run
  | ok run' =>
      obtain ⟨request, snapshot⟩ := run'
      obtain ⟨received, accepted⟩ := parseRequest_ok _ _ _ _ performed
      rw [performed] at run
      injection run with found
      obtain ⟨predicate, live, columnIndex, columnName, values, batch, external⟩ :=
        external_of_any snapshot 0 found
      obtain ⟨position, _, stands, source, _, _, exact⟩ :=
        external_set_keeps_position_iff sampleRuntime (paramsWithKeys [.bytes [2], .null]) request
          received (lookupDocument "0") flagOptions snapshot snapshot accepted (fun _ => .error .typeError)
          .start predicate live 0 columnIndex columnName values batch external
      have decodes : ∀ earlier ≤ 0,
          EntryDecodes sampleRuntime (paramsWithKeys [.bytes [2], .null]) earlier := by
        intro earlier within
        rw [Nat.le_zero.mp within]
        rfl
      rw [exact.mpr decodes] at source
      exact ⟨request, snapshot, batch, received, accepted, source, columnIndex, columnName, values,
        List.mem_flatMap.mpr ⟨predicate, live, external⟩⟩

/-- The entry at 0 is null, and the set that names it filters by the entry at 1. -/
theorem null_entry_shifts_positions : ∃ request snapshot,
    deserializeInitRequest sampleRuntime (paramsWithKeys [.null, .bytes [2]]) = .ok request ∧
      deserializeFilters (lookupDocument "0")
        { flagOptions with joinKeyBatches := some request.joinKeys } = .ok snapshot ∧
      (joinKeyEntries (paramsWithKeys [.null, .bytes [2]])).map isRichNull = [true, false] ∧
      joinKeyPositions sampleRuntime (paramsWithKeys [.null, .bytes [2]]) = [1] ∧
      (setsOf snapshot).any (isExternalAt 0) = true ∧
      snapshot.evaluate flagRows = .ok [true, false] := by
  have run : (parseRequest [.null, .bytes [2]] "0").map (fun run =>
      ((setsOf run.2).any (isExternalAt 0), run.2.evaluate flagRows)) =
      .ok (true, .ok [true, false]) := by
    decide +kernel
  cases performed : parseRequest [.null, .bytes [2]] "0" with
  | error fault =>
      rw [performed] at run
      cases run
  | ok run' =>
      obtain ⟨request, snapshot⟩ := run'
      obtain ⟨received, accepted⟩ := parseRequest_ok _ _ _ _ performed
      rw [performed] at run
      injection run with outcome
      injection outcome with found evaluated
      exact ⟨request, snapshot, received, accepted, by decide +kernel, by decide +kernel, found,
        evaluated⟩

end VgiWorker.Protocol
