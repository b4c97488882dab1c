import VgiWorker.Arrow.StoredIntegers
import VgiWorker.Functions.SubstreamStates
import VgiWorker.Protocol.ServedStates
import VgiWorker.Storage.FrameworkState

/-!
# The FINALIZE stream of a table-in-out function

The first tick runs `finalize` and appends its batches to the state log. Every
tick emits the next row past the cursor, and only the cursor rides in the state.
-/

set_option autoImplicit false

namespace VgiWorker.Functions.FinalizeDrain

open VgiWorker.Js VgiWorker.Arrow VgiWorker.Storage VgiWorker.Protocol.UserState

/-! ## State -/

/-- `pState.state`. -/
structure DrainState where
  cursor : Number
  materialized : Bool

def producerInit : DrainState where
  cursor := Number.ofInt (-1)
  materialized := false

def cursorName : Text := text "cursor"

def materializedName : Text := text "materialized"

def DrainState.toUserValue (state : DrainState) : UserValue :=
  .object [(cursorName, .number state.cursor), (materializedName, .bool state.materialized)]

/-- The members as the producer reads them. -/
def DrainState.ofUserValue (state : UserValue) : DrainState where
  cursor :=
    match state.member cursorName with
    | .number cursor => cursor
    | _ => .nan
  materialized := (state.member materializedName).truthy

/-! ## Ticks -/

/-- A call of `finalize`: what the storage is asked for until it returns, and its batches. -/
structure FinalizeRun where
  operations : List Operation
  batches : List Batch

inductive Produced where
  | emitted (batch : Batch)
  | finished

/-- What a tick did. -/
structure Ticked where
  ranFinalize : Bool
  produced : Produced

/-- A tick: how it is served, and what else the storage is asked for before the next. -/
structure Tick where
  fromToken : Bool
  others : List Operation

def performAll (db : SqliteDb) (operations : List Operation) : SqliteDb :=
  operations.foldl (fun db operation => (FunctionStorageSqlite.perform db operation).1) db

section

variable {State : Type} (config : TableInOutConfig State) (executionId : Bytes)
  (fresh : Option State) (finalize : Option (List (Option State) → FinalizeRun))
  (serializeBatch : Batch → Except Text Bytes) (deserializeBatch : Bytes → Except Text Batch)

def appendFinalized (db : SqliteDb) : List Batch → Except Text SqliteDb
  | [] => .ok db
  | batch :: rest => do
      let bytes ← serializeBatch batch
      appendFinalized (FunctionStorageSqlite.stateAppend db executionId nsStreamingFinalize
        streamingFinalizeKey bytes).1 rest

/-- `finalize`, once, with its batches put in the log. -/
def materialize (db : SqliteDb) : Except Text SqliteDb := do
  let states ← finalizeStates config executionId fresh db
  let collected := (FunctionStorageSqlite.workerCollect db executionId).1
  match finalize with
  | some finalize =>
      let run := finalize states
      appendFinalized executionId serializeBatch (performAll collected run.operations) run.batches
  | none => .ok collected

/-- The next row past the cursor. -/
def drainOne (db : SqliteDb) (state : DrainState) : Except Text (DrainState × Produced) :=
  match FunctionStorageSqlite.stateLogScan db executionId nsStreamingFinalize streamingFinalizeKey
      state.cursor.toInt? (some 1) with
  | [] => .ok (state, .finished)
  | (logId, bytes) :: _ => do
      let batch ← deserializeBatch bytes
      .ok ({ state with cursor := Number.ofInt logId }, .emitted batch)

def producerFn (db : SqliteDb) (state : DrainState) :
    Except Text (SqliteDb × DrainState × Ticked) := do
  if state.materialized then
    let (after, produced) ← drainOne executionId deserializeBatch db state
    .ok (db, after, ⟨false, produced⟩)
  else
    let filled ← materialize config executionId fresh finalize serializeBatch db
    let (after, produced) ← drainOne executionId deserializeBatch filled
      { state with materialized := true }
    .ok (filled, after, ⟨finalize.isSome, produced⟩)

variable {library : VectorLibrary} (nested : Nested.NestedVectors library) (ipc : IpcLibrary)
  (dateText : Number → Text)

/-- One tick of the stream, on the state that the tick before left. -/
def serveTick (db : SqliteDb) (state : DrainState) (tick : Tick) :
    Except Text (SqliteDb × DrainState × Ticked) := do
  let held ← turnState nested ipc dateText producerInit.toUserValue tick.fromToken state.toUserValue
  let (after, left, ticked) ← producerFn config executionId fresh finalize serializeBatch
    deserializeBatch db (DrainState.ofUserValue held)
  .ok (performAll after tick.others, left, ticked)

/-- The ticks up to the one that finishes the stream, or fails. -/
def drain (db : SqliteDb) (state : DrainState) : List Tick → List (Except Text Ticked)
  | [] => []
  | tick :: rest =>
      match serveTick config executionId fresh finalize serializeBatch deserializeBatch nested ipc
          dateText db state tick with
      | .error fault => [.error fault]
      | .ok (after, left, ticked) =>
          .ok ticked ::
            match ticked.produced with
            | .emitted _ => drain after left rest
            | .finished => []

end

/-! ## The log -/

/-- An operation that neither appends to the execution's finalize log nor clears it. -/
abbrev Spares (executionId : Bytes) (operation : Operation) : Prop :=
  operation.SparesLog executionId nsStreamingFinalize streamingFinalizeKey

/-- The finalize log of the execution, as every scan of it reads it. -/
def Logged (executionId : Bytes) (db : SqliteDb) (rows : List (Int × Bytes)) : Prop :=
  ∀ afterId : Int, db.logAfter executionId nsStreamingFinalize streamingFinalizeKey afterId =
    rows.filter fun row => afterId < row.1

section

variable (executionId : Bytes)

private theorem logged_performAll (db : SqliteDb) (rows : List (Int × Bytes))
    (logged : Logged executionId db rows) (operations : List Operation)
    (spare : ∀ operation ∈ operations, Spares executionId operation) :
    Logged executionId (performAll db operations) rows := by
  induction operations generalizing db with
  | nil => exact logged
  | cons operation rest ih =>
      refine ih _ (fun afterId => ?_) fun other member => spare other (List.mem_cons_of_mem _ member)
      rw [logAfter_perform _ _ _ db operation afterId (spare operation List.mem_cons_self)]
      exact logged afterId

private theorem logSequence_perform (db : SqliteDb) (operation : Operation) :
    db.logSequence ≤ (FunctionStorageSqlite.perform db operation).1.logSequence := by
  cases operation with
  | workerPut scope worker state =>
      simp only [FunctionStorageSqlite.perform, FunctionStorageSqlite.workerPut]
      cases workerStateKey worker <;> exact le_refl _
  | stateAppend scope ns key item =>
      exact Int.le_add_one (le_refl _)
  | _ => exact le_refl _

private theorem logSequence_performAll (db : SqliteDb) (operations : List Operation) :
    db.logSequence ≤ (performAll db operations).logSequence := by
  induction operations generalizing db with
  | nil => exact le_refl _
  | cons operation rest ih => exact (logSequence_perform db operation).trans (ih _)

/-- The rows of a log that reads back as the batches, under increasing ids from `first` on. -/
inductive Reads (deserializeBatch : Bytes → Except Text Batch) :
    Int → List (Int × Bytes) → List Batch → Prop where
  | nil (first : Int) : Reads deserializeBatch first [] []
  | cons (first : Int) (bytes : Bytes) (batch : Batch) (rows : List (Int × Bytes))
      (batches : List Batch) (reads : deserializeBatch bytes = .ok batch)
      (rest : Reads deserializeBatch (first + 1) rows batches) :
      Reads deserializeBatch first ((first, bytes) :: rows) (batch :: batches)

variable (serializeBatch : Batch → Except Text Bytes)
  (deserializeBatch : Bytes → Except Text Batch)

private theorem Reads.from_first {first : Int} {rows : List (Int × Bytes)} {batches : List Batch}
    (reads : Reads deserializeBatch first rows batches) : ∀ row ∈ rows, first ≤ row.1 := by
  induction reads with
  | nil first => simp
  | cons first bytes batch rows batches _ _ ih =>
      simp only [List.forall_mem_cons]
      exact ⟨le_refl _, fun row member => by linarith [ih row member]⟩

private theorem logged_append (db : SqliteDb) (rows : List (Int × Bytes))
    (logged : Logged executionId db rows) (bytes : Bytes) :
    Logged executionId (FunctionStorageSqlite.stateAppend db executionId nsStreamingFinalize
      streamingFinalizeKey bytes).1 (rows ++ [(db.logSequence + 1, bytes)]) := by
  intro afterId
  refine (db.logAfter_append executionId nsStreamingFinalize streamingFinalizeKey bytes afterId
    _).trans ?_
  rw [logged afterId, List.filter_append]
  by_cases later : afterId < db.logSequence + 1
  · simp [later]
  · simp [later]

private theorem appendFinalized_ok (db : SqliteDb) (before : List (Int × Bytes))
    (logged : Logged executionId db before) (batches : List Batch)
    (carried : ∀ batch ∈ batches, ∃ bytes, serializeBatch batch = .ok bytes ∧
      deserializeBatch bytes = .ok batch) :
    ∃ filled rows, appendFinalized executionId serializeBatch db batches = .ok filled ∧
      Logged executionId filled (before ++ rows) ∧
      Reads deserializeBatch (db.logSequence + 1) rows batches := by
  induction batches generalizing db before with
  | nil => exact ⟨db, [], rfl, by simpa using logged, .nil _⟩
  | cons batch rest ih =>
      obtain ⟨bytes, written, reads⟩ := carried batch List.mem_cons_self
      obtain ⟨filled, rows, appended, holds, others⟩ := ih _ _
        (logged_append executionId db before logged bytes)
        fun other member => carried other (List.mem_cons_of_mem _ member)
      refine ⟨filled, (db.logSequence + 1, bytes) :: rows, ?_, ?_, .cons _ _ _ _ _ reads others⟩
      · rw [appendFinalized, written, except_ok_bind]
        exact appended
      · rw [List.append_assoc] at holds
        exact holds

/-! ## Ticks after the first -/

/-- The batches that stand in the log past the cursor. -/
def Pending (db : SqliteDb) (cursor : Int) (batches : List Batch) : Prop :=
  ∃ rows first, Logged executionId db rows ∧
    Reads deserializeBatch first (rows.filter fun row => cursor < row.1) batches ∧
    -1 ≤ cursor ∧ cursor < first ∧ first + batches.length ≤ Number.maxSafeInteger + 1

private theorem pending_performAll (db : SqliteDb) (cursor : Int) (batches : List Batch)
    (pending : Pending executionId deserializeBatch db cursor batches)
    (operations : List Operation) (spare : ∀ operation ∈ operations, Spares executionId operation) :
    Pending executionId deserializeBatch (performAll db operations) cursor batches := by
  obtain ⟨rows, first, logged, rest⟩ := pending
  exact ⟨rows, first, logged_performAll executionId db rows logged operations spare, rest⟩

private theorem cursor_toInt (db : SqliteDb) (cursor : Int) (batches : List Batch)
    (pending : Pending executionId deserializeBatch db cursor batches) :
    (Number.ofInt cursor).toInt? = some cursor := by
  obtain ⟨_, first, _, _, low, high, safe⟩ := pending
  have positive : 1 ≤ Number.maxSafeInteger := by decide
  exact (toInt?_ofInt_safe cursor (by omega)).1

private theorem scan_eq (db : SqliteDb) (cursor : Int) (rows : List (Int × Bytes))
    (logged : Logged executionId db rows) :
    FunctionStorageSqlite.stateLogScan db executionId nsStreamingFinalize streamingFinalizeKey
      (some cursor) (some 1) = (rows.filter fun row => cursor < row.1).take 1 := by
  simp only [FunctionStorageSqlite.stateLogScan, Option.getD_some, logged cursor,
    FunctionStorageSqlite.sqlLimit]
  rfl

private theorem drainOne_finished (db : SqliteDb) (cursor : Int) (materialized : Bool)
    (pending : Pending executionId deserializeBatch db cursor []) :
    drainOne executionId deserializeBatch db ⟨Number.ofInt cursor, materialized⟩ =
      .ok (⟨Number.ofInt cursor, materialized⟩, .finished) := by
  have integral := cursor_toInt executionId deserializeBatch db cursor [] pending
  obtain ⟨rows, first, logged, reads, _⟩ := pending
  have none := scan_eq executionId db cursor rows logged
  generalize (rows.filter fun row => cursor < row.1) = remaining at reads none
  cases reads with
  | nil first =>
      simp only [drainOne, integral, none]
      rfl

/-- The front row is emitted and the cursor moves onto it: what is left stands past it. -/
private theorem drainOne_emitted (db : SqliteDb) (cursor : Int) (materialized : Bool)
    (batch : Batch) (rest : List Batch)
    (pending : Pending executionId deserializeBatch db cursor (batch :: rest)) :
    ∃ next, drainOne executionId deserializeBatch db ⟨Number.ofInt cursor, materialized⟩ =
        .ok (⟨Number.ofInt next, materialized⟩, .emitted batch) ∧
      Pending executionId deserializeBatch db next rest := by
  have integral := cursor_toInt executionId deserializeBatch db cursor _ pending
  obtain ⟨rows, first, logged, reads, low, high, safe⟩ := pending
  have front := scan_eq executionId db cursor rows logged
  have narrowed : (rows.filter fun row => first < row.1) =
      (rows.filter fun row => cursor < row.1).filter fun row => first < row.1 := by
    rw [List.filter_filter]
    refine List.filter_congr fun row _ => ?_
    by_cases later : first < row.1
    · simp [later, high.trans later]
    · simp [later]
  generalize (rows.filter fun row => cursor < row.1) = remaining at reads front narrowed
  cases reads with
  | cons first bytes batch others rest read left =>
      refine ⟨first, ?_, rows, first + 1, logged, ?_, ?_⟩
      · simp only [drainOne, integral, front, List.take_succ_cons, read, except_ok_bind]
      · have kept : (others.filter fun row => first < row.1) = others :=
          List.filter_eq_self.mpr fun row member =>
            decide_eq_true (Int.lt_of_add_one_le (left.from_first deserializeBatch row member))
        rw [narrowed, List.filter_cons_of_neg (by simp), kept]
        exact left
      · rw [List.length_cons] at safe
        omega

variable {State : Type} (config : TableInOutConfig State) (fresh : Option State)
  (finalize : List (Option State) → FinalizeRun)
  {library : VectorLibrary} (nested : Nested.NestedVectors library) (ipc : IpcLibrary)
  (dateText : Number → Text)

/-- A tick gets the same state from the token as in memory. -/
private theorem serveTick_eq (db : SqliteDb) (state : DrainState) (tick : Tick) :
    serveTick config executionId fresh (some finalize) serializeBatch deserializeBatch nested ipc
        dateText db state tick =
      (producerFn config executionId fresh (some finalize) serializeBatch deserializeBatch db
        state).map fun served => (performAll served.1 tick.others, served.2.1, served.2.2) := by
  have started : turnState nested ipc dateText producerInit.toUserValue tick.fromToken
      state.toUserValue = .ok state.toUserValue := by
    have distinct : [cursorName, materializedName].Nodup := by decide
    have plain : text "__proto__" ∉ [cursorName, materializedName] := by decide
    have named : FitsText cursorName ∧ FitsText materializedName := by
      unfold FitsText
      decide +kernel
    refine turnState_framework nested ipc dateText _ tick.fromToken _ distinct plain
      (fun member isMember => ?_) fun member isMember => ?_
    · rcases List.mem_pair.mp isMember with rfl | rfl
      · exact named.1
      · exact named.2
    · rcases List.mem_pair.mp isMember with rfl | rfl
      · exact .number state.cursor
      · exact .flag state.materialized
  have same : DrainState.ofUserValue state.toUserValue = state := rfl
  rw [serveTick, started, except_ok_bind, same]
  cases producerFn config executionId fresh (some finalize) serializeBatch deserializeBatch db
    state <;> rfl

/-- What the ticks after the first do. -/
def remaining (batches : List Batch) : List Ticked :=
  batches.map (fun batch => ⟨false, .emitted batch⟩) ++ [⟨false, .finished⟩]

private theorem drain_pending (ticks : List Tick)
    (spare : ∀ tick ∈ ticks, ∀ operation ∈ tick.others, Spares executionId operation)
    (db : SqliteDb) (cursor : Int) (batches : List Batch)
    (pending : Pending executionId deserializeBatch db cursor batches) :
    drain config executionId fresh (some finalize) serializeBatch deserializeBatch nested ipc
        dateText db ⟨Number.ofInt cursor, true⟩ ticks =
      ((remaining batches).take ticks.length).map .ok := by
  induction ticks generalizing db cursor batches with
  | nil => rfl
  | cons tick rest ih =>
      cases batches with
      | nil =>
          have finished := drainOne_finished executionId deserializeBatch db cursor true pending
          simp only [drain, serveTick_eq, producerFn, finished, if_true, except_ok_bind, Except.map]
          simp [remaining]
      | cons batch others =>
          obtain ⟨next, emitted, left⟩ :=
            drainOne_emitted executionId deserializeBatch db cursor true batch others pending
          simp only [drain, serveTick_eq, producerFn, emitted, if_true, except_ok_bind, Except.map]
          rw [ih (fun other member => spare other (List.mem_cons_of_mem _ member)) _ next others
            (pending_performAll executionId deserializeBatch db next others left tick.others
              (spare tick List.mem_cons_self))]
          rfl

/-! ## Every schedule -/

/-- The log after the first tick has filled it. -/
private theorem pending_materialize (db : SqliteDb) (states : List (Option State))
    (logged : Logged executionId db []) (collected : finalizeStates config executionId fresh db =
      .ok states)
    (spare : ∀ operation ∈ (finalize states).operations, Spares executionId operation)
    (carried : ∀ batch ∈ (finalize states).batches, ∃ bytes, serializeBatch batch = .ok bytes ∧
      deserializeBatch bytes = .ok batch) (nonneg : 0 ≤ db.logSequence)
    (safe : (performAll db
        (.workerCollect executionId :: (finalize states).operations)).logSequence +
      (finalize states).batches.length ≤ Number.maxSafeInteger) :
    ∃ filled, materialize config executionId fresh (some finalize) serializeBatch db = .ok filled ∧
      Pending executionId deserializeBatch filled (-1) (finalize states).batches := by
  obtain ⟨operations, same⟩ : ∃ operations, operations =
      Operation.workerCollect executionId :: (finalize states).operations := ⟨_, rfl⟩
  rw [← same] at safe
  have kept : Logged executionId (performAll db operations) [] :=
    logged_performAll executionId db [] logged operations
      (same ▸ List.forall_mem_cons.mpr ⟨trivial, spare⟩)
  obtain ⟨filled, rows, appended, holds, reads⟩ := appendFinalized_ok executionId serializeBatch
    deserializeBatch (performAll db operations) [] kept (finalize states).batches carried
  have above := nonneg.trans (logSequence_performAll db operations)
  refine ⟨filled, ?_, rows, (performAll db operations).logSequence + 1, holds, ?_, le_refl _,
    by omega, by omega⟩
  · rw [same] at appended
    rw [materialize, collected, except_ok_bind]
    exact appended
  · have all : (rows.filter fun row => -1 < row.1) = rows :=
      List.filter_eq_self.mpr fun row member =>
        decide_eq_true (by linarith [reads.from_first deserializeBatch row member])
    rw [all]
    exact reads

end

/-! ## Samples -/

/-- A batch without columns. -/
def rowsOnly (numRows : Nat) : Batch :=
  ⟨⟨[], .empty⟩, [], numRows, none⟩

/-- `finalize` pops the queue of the execution and returns two batches. -/
def twoBatches : List (Option UInt8) → FinalizeRun := fun states =>
  ⟨[.queuePop [9]], [rowsOnly states.length, rowsOnly 2]⟩

end VgiWorker.Functions.FinalizeDrain
