import VgiWorker.Storage.ReferenceObject
import VgiWorker.Storage.Renaming
import VgiWorker.Storage.Tables

/-!
# Interchangeable backends

Runs of the same operations on both backends. The durable object stores what
SQLite stores, under base64 and other log ids, whatever the run; an operation
answers alike except where the client takes an empty string for a missing one or
leaves a limit out.
-/

set_option autoImplicit false

namespace VgiWorker.Storage

open Js
open DurableObject

/-! ## The same calls, the same answers -/

def CursorsAgree (issued : List (Int × Int)) : Option Int → Option Int → Prop
  | none, none => True
  | some left, some right => SameCursor issued left right
  | none, some _ | some _, none => False

/-- The same call: a cursor is renamed as the log ids are. -/
def SameCall (issued : List (Int × Int)) : Operation → Operation → Prop
  | .stateLogScan scopeId ns key afterId limit, renamed =>
      ∃ renamedAfter, renamed = .stateLogScan scopeId ns key renamedAfter limit ∧
        CursorsAgree issued afterId renamedAfter
  | operation, renamed => renamed = operation

/-- Collected and scanned rows are compared as multisets and log ids up to `issued`. -/
def SameAnswer (issued : List (Int × Int)) : Answer → Answer → Prop
  | .states left, .states right => left.Perm right
  | .workers left, .workers right => left.Perm right
  | .logId left, .logId right => (left, right) ∈ issued
  | .logRows left, .logRows right =>
      List.Forall₂ (fun row other => (row.1, other.1) ∈ issued ∧ row.2 = other.2) left right
  | left, right => left = right

def SameOutcome (issued : List (Int × Int)) : Outcome → Outcome → Prop
  | .ok left, .ok right => SameAnswer issued left right
  | .error left, .error right => left = right
  | .ok _, .error _ | .error _, .ok _ => False

/-- The log ids that an append gave out. -/
def newIds : Outcome → Outcome → List (Int × Int)
  | .ok (.logId left), .ok (.logId right) => [(left, right)]
  | _, _ => []

/-- The execution whose worker rows an operation pages through. -/
def Operation.paged? : Operation → Option Bytes
  | .workerCollect executionId | .workerScan executionId => some executionId
  | _ => none

/-! ## Runs -/

/-- One call on both backends, with the states it starts from. -/
structure Turn (object : DurableObject) where
  operation : Operation
  renamed : Operation
  around : Surroundings
  db : SqliteDb
  state : object.State

namespace Turn

variable {object : DurableObject} (turn : Turn object)

def sqlite : SqliteDb × Outcome :=
  FunctionStorageSqlite.perform turn.db turn.operation

def cfDo : object.State × Outcome :=
  FunctionStorageCfDo.perform turn.around turn.renamed turn.state

/-- When the backends answer alike: no empty item is popped, no limit of zero withholds rows
and no row comes after a page that ends at the empty worker key. -/
def Agrees (contract : object.Contract) : Prop :=
  match turn.operation with
  | .queuePop executionId => turn.db.front? executionId ≠ some []
  | .stateLogScan scopeId ns key afterId limit =>
      limit = some 0 → turn.db.logAfter scopeId ns key (afterId.getD (-1)) = []
  | .workerCollect executionId | .workerScan executionId =>
      PagesContinue (contract.pages turn.state (bytesToB64 executionId) (bytesToB64 nsWorker))
  | _ => True

end Turn

def issuedIn {object : DurableObject} (turns : List (Turn object)) : List (Int × Int) :=
  turns.flatMap fun turn => newIds turn.sqlite.2 turn.cfDo.2

/-- The attempt ids are fresh, no request is lost twice and the bound covers the pages. -/
inductive BothRun {object : DurableObject} (contract : object.Contract) :
    List (Turn object) → SqliteDb → object.State → Prop where
  | start : BothRun contract [] Tables.empty object.initial
  | call {turns : List (Turn object)} {db : SqliteDb} {state : object.State}
      (earlier : BothRun contract turns db state) (operation renamed : Operation)
      (around : Surroundings)
      (same : SameCall (issuedIn turns) operation renamed)
      (fresh : ∀ turn ∈ turns, turn.around.attemptId ≠ around.attemptId)
      (arrives : around.Arrives)
      (covers : ∀ executionId ∈ operation.paged?,
        (contract.pages state (bytesToB64 executionId) (bytesToB64 nsWorker)).length ≤
          around.pageBound) :
      BothRun contract (turns ++ [⟨operation, renamed, around, db, state⟩])
        (FunctionStorageSqlite.perform db operation).1
        (FunctionStorageCfDo.perform around renamed state).1

/-! ## The relation that every run keeps -/

variable {object : DurableObject} {contract : object.Contract}

/-- `issued` lists the pairs of log ids in the order of the appends, and `used` the attempt
ids spent. -/
structure Alike (contract : object.Contract) (issued : List (Int × Int)) (used : List Text)
    (db : SqliteDb) (state : object.State) : Prop where
  renames : Tables.Renames bytesToB64 issued db (contract.tables state)
  keyed : db.Keyed
  ascending : issued.Pairwise fun left right => left.1 < right.1 ∧ left.2 < right.2
  positive : ∀ pair ∈ issued, 0 < pair.1 ∧ 0 < pair.2
  bounded : ∀ pair ∈ issued,
    pair.1 ≤ db.logSequence ∧ pair.2 ≤ (contract.tables state).logSequence
  sequences : 0 ≤ db.logSequence ∧ 0 ≤ (contract.tables state).logSequence
  seen : ∀ id, contract.seen state id → id ∈ used

/-- What a call does to two alike states. -/
structure TurnSound (contract : object.Contract) (issued : List (Int × Int)) (used : List Text)
    (turn : Turn object) : Prop where
  alike : Alike contract (issued ++ newIds turn.sqlite.2 turn.cfDo.2)
    (used ++ [turn.around.attemptId]) turn.sqlite.1 turn.cfDo.1
  agrees : turn.Agrees contract →
    SameOutcome (issued ++ newIds turn.sqlite.2 turn.cfDo.2) turn.sqlite.2 turn.cfDo.2
  differs : ¬ turn.Agrees contract → ∀ any, ¬ SameOutcome any turn.sqlite.2 turn.cfDo.2

private theorem bytesToB64_injective' : Function.Injective bytesToB64 :=
  fun left right => bytesToB64_injective left right

theorem alike_start : Alike contract [] [] Tables.empty object.initial where
  renames := by
    rw [contract.initialTables]
    exact .empty
  keyed := Tables.keyed_empty
  ascending := .nil
  positive := by simp
  bounded := by simp
  sequences := by
    rw [contract.initialTables]
    exact ⟨Int.le_refl 0, Int.le_refl 0⟩
  seen id seen := absurd seen (contract.initialSeen id)

private theorem sameAnswer_append (issued more : List (Int × Int)) (left right : Answer)
    (same : SameAnswer issued left right) : SameAnswer (issued ++ more) left right := by
  cases left with
  | logId id =>
      cases right with
      | logId other => exact List.mem_append_left more same
      | _ => exact same
  | logRows rows =>
      cases right with
      | logRows others =>
          exact List.Forall₂.imp (fun _ _ both => ⟨List.mem_append_left more both.1, both.2⟩) same
      | _ => exact same
  | states | workers => cases right <;> exact same
  | _ => exact same

private theorem sameOutcome_append (issued more : List (Int × Int)) (left right : Outcome)
    (same : SameOutcome issued left right) : SameOutcome (issued ++ more) left right := by
  cases left with
  | error fault =>
      cases right with
      | error other => exact same
      | ok answer => exact same
  | ok answer =>
      cases right with
      | error other => exact same
      | ok other => exact sameAnswer_append issued more answer other same

private theorem SameCursor.absent {issued : List (Int × Int)}
    (positive : ∀ pair ∈ issued, 0 < pair.1 ∧ 0 < pair.2) : SameCursor issued (-1) (-1) := by
  intro pair member
  have both := positive pair member
  constructor
  · intro _
    omega
  · intro _
    omega

private theorem b64ToBytes_bytesToB64 (bytes : Bytes) :
    FunctionStorageCfDo.b64ToBytes (bytesToB64 bytes) = .ok bytes := by
  simp [FunctionStorageCfDo.b64ToBytes, b64ToBytes?_bytesToB64]

/-! ## One call -/

section Calls

variable {issued : List (Int × Int)} {used : List Text} {db : SqliteDb} {state : object.State}

/-- After a call that gives out no log id. -/
private theorem Alike.next {after : object.State} {db' : SqliteDb} {expected : Tables Text}
    (alike : Alike contract issued used db state) (attemptId : Text)
    (renames : Tables.Renames bytesToB64 issued db' expected) (keyed : db'.Keyed)
    (sequence : db'.logSequence = db.logSequence)
    (otherSequence : expected.logSequence = (contract.tables state).logSequence)
    (sameRows : (contract.tables after).SameRows expected)
    (seen : ∀ id, contract.seen after id → contract.seen state id ∨ id = attemptId) :
    Alike contract (issued ++ []) (used ++ [attemptId]) db' after where
  renames := by
    rw [List.append_nil]
    exact renames.sameRows sameRows
  keyed := keyed
  ascending := by simpa using alike.ascending
  positive := by simpa using alike.positive
  bounded := by
    rw [sequence, sameRows.logSequence, otherSequence, List.append_nil]
    exact alike.bounded
  sequences := by
    rw [sequence, sameRows.logSequence, otherSequence]
    exact alike.sequences
  seen id now := by
    rcases seen id now with before | rfl
    · exact List.mem_append_left _ (alike.seen id before)
    · exact List.mem_append_right _ List.mem_cons_self

private theorem Alike.unchanged (alike : Alike contract issued used db state) (attemptId : Text) :
    Alike contract (issued ++ []) (used ++ [attemptId]) db state :=
  alike.next attemptId alike.renames alike.keyed rfl rfl ⟨.refl _, rfl, rfl, rfl⟩
    fun _ seen => .inl seen

/-- A call whose outcomes are known and alike. -/
private theorem TurnSound.of_same {turn : Turn object} {db' : SqliteDb} {after : object.State}
    {left right : Outcome} (sqlite : turn.sqlite = (db', left)) (cfDo : turn.cfDo = (after, right))
    (alike : Alike contract (issued ++ newIds left right) (used ++ [turn.around.attemptId]) db' after)
    (same : SameOutcome (issued ++ newIds left right) left right) (agrees : turn.Agrees contract) :
    TurnSound contract issued used turn where
  alike := by
    rw [sqlite, cfDo]
    exact alike
  agrees := by
    rw [sqlite, cfDo]
    exact fun _ => same
  differs disagrees := absurd agrees disagrees

variable (alike : Alike contract issued used db state) (around : Surroundings)
  (arrives : around.Arrives) (fresh : around.attemptId ∉ used)
include alike arrives fresh

omit arrives in
private theorem unseen : ¬ contract.seen state around.attemptId :=
  fun seen => fresh (alike.seen _ seen)

omit fresh in
/-- One request, as the table statement it is. -/
private theorem single_next {Data : Type} {request : Request Data} {data : Data}
    {db' : SqliteDb} {expected : Tables Text}
    (answers : object.Answers contract.tables state request data expected)
    (read : Data → Except StorageError Answer)
    (own : ∀ id, request.attemptId? = some id → id = around.attemptId)
    (renames : Tables.Renames bytesToB64 issued db' expected) (keyed : db'.Keyed)
    (sequence : db'.logSequence = db.logSequence)
    (otherSequence : expected.logSequence = (contract.tables state).logSequence) :
    ∃ after, FunctionStorageCfDo.single around request read state = (after, read data) ∧
      Alike contract (issued ++ []) (used ++ [around.attemptId]) db' after := by
  obtain ⟨after, handled, sameRows, seen⟩ :=
    FunctionStorageCfDo.single_answers contract around arrives answers read
  refine ⟨after, handled, alike.next around.attemptId renames keyed sequence otherSequence sameRows ?_⟩
  intro id now
  exact (seen id now).imp_right (own id)

private theorem sound_put (scopeId ns key value : Bytes) :
    ∃ after, FunctionStorageCfDo.statePutMany around scopeId ns [(key, value)] state =
        (after, .ok .done) ∧
      Alike contract (issued ++ []) (used ++ [around.attemptId]) (db.put scopeId ns key value)
        after :=
  single_next alike around arrives
    (contract.statePutMany state (bytesToB64 scopeId) (bytesToB64 ns)
      [(bytesToB64 key, bytesToB64 value)] around.attemptId (unseen alike around fresh))
    (fun _ => .ok .done) (fun _ own => (Option.some.inj own).symm)
    (alike.renames.put bytesToB64_injective' scopeId ns key value)
    (alike.keyed.put scopeId ns key value) rfl rfl

private theorem sound_statePut (scopeId ns key value : Bytes) :
    TurnSound contract issued used
      ⟨.statePut scopeId ns key value, .statePut scopeId ns key value, around, db, state⟩ := by
  obtain ⟨after, handled, next⟩ := sound_put alike around arrives fresh scopeId ns key value
  exact .of_same rfl handled next rfl trivial

private theorem sound_workerPut (executionId : Bytes) (worker : WorkerStateKey) (value : Bytes) :
    TurnSound contract issued used
      ⟨.workerPut executionId worker value, .workerPut executionId worker value, around, db,
        state⟩ := by
  cases found : workerStateKey worker with
  | error fault =>
      have sqlite : FunctionStorageSqlite.perform db (.workerPut executionId worker value) =
          (db, .error fault) := by
        simp [FunctionStorageSqlite.perform, FunctionStorageSqlite.workerPut, found]
      have cfDo : FunctionStorageCfDo.perform around (.workerPut executionId worker value) state =
          (state, .error fault) := by
        simp [FunctionStorageCfDo.perform, FunctionStorageCfDo.workerPut, found]
      exact .of_same sqlite cfDo (alike.unchanged around.attemptId) rfl trivial
  | ok key =>
      obtain ⟨after, handled, next⟩ := sound_put alike around arrives fresh executionId nsWorker key
        value
      have sqlite : FunctionStorageSqlite.perform db (.workerPut executionId worker value) =
          (db.put executionId nsWorker key value, .ok .done) := by
        simp [FunctionStorageSqlite.perform, FunctionStorageSqlite.workerPut, found]
      have cfDo : FunctionStorageCfDo.perform around (.workerPut executionId worker value) state =
          (after, .ok .done) := by
        simp [FunctionStorageCfDo.perform, FunctionStorageCfDo.workerPut, found, handled]
      exact .of_same sqlite cfDo next rfl trivial

private theorem sound_queuePush (executionId : Bytes) (items : List Bytes) :
    TurnSound contract issued used
      ⟨.queuePush executionId items, .queuePush executionId items, around, db, state⟩ := by
  obtain ⟨after, handled, next⟩ := single_next alike around arrives
    (contract.queuePush state (bytesToB64 executionId) (items.map bytesToB64) around.attemptId
      (unseen alike around fresh))
    (fun count => .ok (.count count)) (fun _ own => (Option.some.inj own).symm)
    (alike.renames.push executionId items) alike.keyed rfl rfl
  rw [List.length_map] at handled
  exact .of_same rfl handled next rfl trivial

private theorem sound_queueClear (executionId : Bytes) :
    TurnSound contract issued used
      ⟨.queueClear executionId, .queueClear executionId, around, db, state⟩ := by
  obtain ⟨after, handled, next⟩ := single_next alike around arrives
    (contract.queueClear state (bytesToB64 executionId) around.attemptId
      (unseen alike around fresh))
    (fun cleared => .ok (.count cleared)) (fun _ own => (Option.some.inj own).symm)
    (alike.renames.clearQueue bytesToB64_injective' executionId) alike.keyed rfl rfl
  rw [alike.renames.queueLength bytesToB64_injective'] at handled
  exact .of_same rfl handled next rfl trivial

private theorem sound_executionClear (scopeId : Bytes) :
    TurnSound contract issued used
      ⟨.executionClear scopeId, .executionClear scopeId, around, db, state⟩ := by
  obtain ⟨after, handled, next⟩ := single_next alike around arrives
    (contract.executionClear state (bytesToB64 scopeId) around.attemptId
      (unseen alike around fresh))
    (fun deleted => .ok (.count deleted)) (fun _ own => (Option.some.inj own).symm)
    (alike.renames.clear bytesToB64_injective' scopeId) (alike.keyed.clear scopeId) rfl rfl
  rw [alike.renames.clearCount bytesToB64_injective'] at handled
  exact .of_same rfl handled next rfl trivial

/-- What the client makes of the values of one key. -/
private def readFirstValue (rows : Option (List (Option Text))) : Except StorageError Answer :=
  match (rows.getD []).head?.join with
  | none => .ok (.value none)
  | some value => (FunctionStorageCfDo.b64ToBytes value).map fun bytes => .value (some bytes)

/-- What the client makes of a popped item. -/
private def readPopped (item : Option Text) : Except StorageError Answer :=
  match item with
  | none | some [] => .ok (.value none)
  | some item => (FunctionStorageCfDo.b64ToBytes item).map fun bytes => .value (some bytes)

omit fresh in
private theorem sound_stateGet (scopeId ns key : Bytes) :
    TurnSound contract issued used
      ⟨.stateGet scopeId ns key, .stateGet scopeId ns key, around, db, state⟩ := by
  obtain ⟨after, handled, next⟩ := single_next alike around arrives
    (contract.stateGetMany state (bytesToB64 scopeId) (bytesToB64 ns) [bytesToB64 key])
    readFirstValue
    (fun _ own => by cases own) alike.renames alike.keyed rfl rfl
  have value := alike.renames.value? bytesToB64_injective' alike.keyed scopeId ns key
  cases found : db.value? scopeId ns key with
  | none =>
      have sqlite : FunctionStorageSqlite.perform db (.stateGet scopeId ns key) =
          (db, .ok (.value none)) := by
        simp [FunctionStorageSqlite.perform, FunctionStorageSqlite.stateGet, found]
      rw [found] at value
      simp only [readFirstValue, List.map_cons, value, Option.map_none] at handled
      exact .of_same sqlite handled next rfl trivial
  | some bytes =>
      have sqlite : FunctionStorageSqlite.perform db (.stateGet scopeId ns key) =
          (db, .ok (.value (some bytes))) := by
        simp [FunctionStorageSqlite.perform, FunctionStorageSqlite.stateGet, found]
      rw [found] at value
      simp only [readFirstValue, List.map_cons, value, Option.map_some, Option.getD_some, List.head?_cons,
        Option.join_some, b64ToBytes_bytesToB64] at handled
      exact .of_same sqlite handled next rfl trivial

private theorem sound_queuePop (executionId : Bytes) :
    TurnSound contract issued used
      ⟨.queuePop executionId, .queuePop executionId, around, db, state⟩ := by
  obtain ⟨after, handled, next⟩ := single_next alike around arrives
    (contract.queuePop state (bytesToB64 executionId) around.attemptId (unseen alike around fresh))
    readPopped
    (fun _ own => (Option.some.inj own).symm)
    (alike.renames.pop bytesToB64_injective' executionId) alike.keyed rfl rfl
  rw [alike.renames.front? bytesToB64_injective' executionId] at handled
  cases found : db.front? executionId with
  | none =>
      have sqlite : FunctionStorageSqlite.perform db (.queuePop executionId) =
          (db.pop executionId, .ok (.value none)) := by
        simp [FunctionStorageSqlite.perform, FunctionStorageSqlite.queuePop, found]
      rw [found] at handled
      exact .of_same sqlite handled next rfl (by simp [Turn.Agrees, found])
  | some item =>
      have sqlite : FunctionStorageSqlite.perform db (.queuePop executionId) =
          (db.pop executionId, .ok (.value (some item))) := by
        simp [FunctionStorageSqlite.perform, FunctionStorageSqlite.queuePop, found]
      rw [found, Option.map_some] at handled
      cases item with
      | nil =>
          -- the empty item is off both queues, and the client reports none
          have cfDo : Turn.cfDo ⟨.queuePop executionId, .queuePop executionId, around, db, state⟩ =
              (after, .ok (.value none)) := handled
          refine ⟨?_, fun agrees => absurd found agrees, ?_⟩
          · rw [cfDo, Turn.sqlite, sqlite]
            exact next
          · intro _ any same
            rw [cfDo, Turn.sqlite, sqlite] at same
            cases same
      | cons byte bytes =>
          cases encoded : bytesToB64 (byte :: bytes) with
          | nil => exact absurd ((bytesToB64_eq_nil_iff _).mp encoded) (List.cons_ne_nil _ _)
          | cons unit units =>
              have decoded := b64ToBytes_bytesToB64 (byte :: bytes)
              rw [encoded] at handled decoded
              simp only [readPopped, decoded] at handled
              exact .of_same sqlite handled next rfl (by simp [Turn.Agrees, found])

private theorem sound_stateAppend (scopeId ns key item : Bytes) :
    TurnSound contract issued used
      ⟨.stateAppend scopeId ns key item, .stateAppend scopeId ns key item, around, db, state⟩ := by
  obtain ⟨ordinal, above, answers⟩ := contract.stateAppend state (bytesToB64 scopeId)
    (bytesToB64 ns) (bytesToB64 key) (bytesToB64 item) around.attemptId (unseen alike around fresh)
  obtain ⟨after, handled, sameRows, seen⟩ := FunctionStorageCfDo.single_answers contract around
    arrives answers fun ordinal => .ok (.logId ordinal)
  have sequences := alike.sequences
  have sqlite : FunctionStorageSqlite.perform db (.stateAppend scopeId ns key item) =
      (db.append (db.logSequence + 1) scopeId ns key item, .ok (.logId (db.logSequence + 1))) := rfl
  refine .of_same sqlite handled ?_ ?_ trivial
  · exact
      { renames := (alike.renames.append scopeId ns key item _ ordinal).sameRows sameRows
        keyed := alike.keyed
        ascending := by
          refine List.pairwise_append.mpr ⟨alike.ascending, List.pairwise_singleton _ _, ?_⟩
          intro pair member last isLast
          cases List.mem_singleton.mp isLast
          have bounded := alike.bounded pair member
          exact ⟨Int.lt_add_one_iff.mpr bounded.1, Int.lt_of_le_of_lt bounded.2 above⟩
        positive := by
          intro pair member
          rcases List.mem_append.mp member with earlier | last
          · exact alike.positive pair earlier
          · cases List.mem_singleton.mp last
            exact ⟨Int.lt_add_one_iff.mpr sequences.1, Int.lt_of_le_of_lt sequences.2 above⟩
        bounded := by
          rw [sameRows.logSequence]
          intro pair member
          rcases List.mem_append.mp member with earlier | last
          · have bounded := alike.bounded pair earlier
            exact ⟨by simp only [Tables.append]; omega, by simp only [Tables.append]; omega⟩
          · cases List.mem_singleton.mp last
            exact ⟨Int.le_refl _, Int.le_refl _⟩
        sequences := by
          rw [sameRows.logSequence]
          exact ⟨by simp only [Tables.append]; omega, by simp only [Tables.append]; omega⟩
        seen := by
          intro id now
          rcases seen id now with before | own
          · exact List.mem_append_left _ (alike.seen id before)
          · cases own
            exact List.mem_append_right _ List.mem_cons_self }
  · exact List.mem_append_right _ List.mem_cons_self

omit alike arrives fresh in
/-- Log rows read back from base64. -/
private theorem mapM_readLogRow (rows : List (Int × Bytes)) (others : List (Int × Text))
    (related : List.Forall₂ (fun row other => (row.1, other.1) ∈ issued ∧
      other.2 = bytesToB64 row.2) rows others) :
    ∃ read, others.mapM FunctionStorageCfDo.readLogRow = .ok read ∧
      List.Forall₂ (fun row other => (row.1, other.1) ∈ issued ∧ row.2 = other.2) rows read := by
  induction related with
  | nil => exact ⟨[], rfl, .nil⟩
  | @cons row other rows others first _ ih =>
      obtain ⟨read, reads, same⟩ := ih
      have here : FunctionStorageCfDo.readLogRow other = .ok (other.1, row.2) := by
        rw [FunctionStorageCfDo.readLogRow, first.2, b64ToBytes_bytesToB64]
        rfl
      refine ⟨(other.1, row.2) :: read, ?_, .cons ⟨first.1, rfl⟩ same⟩
      rw [List.mapM_cons, here, reads]
      rfl

omit fresh in
/-- A log scan that sends `sent`, when the object's rows for it are known. -/
private theorem logScan_next (scopeId ns key : Bytes) (renamedAfter : Option Int)
    (limit : Option Int) (rows : List (Int × Bytes)) (others : List (Int × Text))
    (answers : object.Answers contract.tables state
      (.stateLogScan (bytesToB64 scopeId) (bytesToB64 ns) (bytesToB64 key) (renamedAfter.getD (-1))
        (FunctionStorageCfDo.sentLimit limit)) (some others) (contract.tables state))
    (related : List.Forall₂ (fun row other => (row.1, other.1) ∈ issued ∧
      other.2 = bytesToB64 row.2) rows others) :
    ∃ after read, FunctionStorageCfDo.stateLogScan around scopeId ns key renamedAfter limit state =
        (after, .ok (.logRows read)) ∧
      Alike contract (issued ++ []) (used ++ [around.attemptId]) db after ∧
      List.Forall₂ (fun row other => (row.1, other.1) ∈ issued ∧ row.2 = other.2) rows read := by
  obtain ⟨after, handled, next⟩ := single_next alike around arrives answers
    (fun rows => ((rows.getD []).mapM FunctionStorageCfDo.readLogRow).map .logRows)
    (fun _ own => by cases own) alike.renames alike.keyed rfl rfl
  obtain ⟨read, reads, same⟩ := mapM_readLogRow rows others related
  refine ⟨after, read, ?_, next, same⟩
  rw [Option.getD_some, reads] at handled
  exact handled

omit fresh in
private theorem sound_stateLogScan (scopeId ns key : Bytes) (afterId limit : Option Int)
    (renamed : Operation)
    (same : SameCall issued (.stateLogScan scopeId ns key afterId limit) renamed) :
    TurnSound contract issued used
      ⟨.stateLogScan scopeId ns key afterId limit, renamed, around, db, state⟩ := by
  obtain ⟨renamedAfter, rfl, agree⟩ := same
  have cursors : SameCursor issued (afterId.getD (-1)) (renamedAfter.getD (-1)) := by
    cases afterId with
    | none =>
        cases renamedAfter with
        | none => exact SameCursor.absent alike.positive
        | some cursor => cases agree
    | some cursor =>
        cases renamedAfter with
        | none => cases agree
        | some other => exact agree
  have related := alike.renames.logAfter bytesToB64_injective' scopeId ns key _ _ cursors
  have whole := contract.stateLogScan state (bytesToB64 scopeId) (bytesToB64 ns) (bytesToB64 key)
    (renamedAfter.getD (-1))
  -- without a limit both sides list every row after the cursor
  have unlimited (unsent : FunctionStorageCfDo.sentLimit limit = none) :=
    logScan_next alike around arrives scopeId ns key renamedAfter limit _ _
      (by rw [unsent]; exact whole) related
  have lift (rows read : List (Int × Bytes)) (relatedRead : List.Forall₂
      (fun row other => (row.1, other.1) ∈ issued ∧ row.2 = other.2) rows read) :
      SameOutcome (issued ++ []) (.ok (.logRows rows)) (.ok (.logRows read)) := by
    rw [List.append_nil]
    exact relatedRead
  cases limit with
  | none =>
      obtain ⟨after, read, handled, next, sameRows⟩ := unlimited rfl
      exact .of_same rfl handled next (lift _ _ sameRows) (fun zero => by cases zero)
  | some limit =>
      rcases Int.lt_trichotomy limit 0 with negative | rfl | positive
      · obtain ⟨after, read, handled, next, sameRows⟩ := unlimited (by
          simpa [FunctionStorageCfDo.sentLimit] using Int.le_of_lt negative)
        have rows : FunctionStorageSqlite.stateLogScan db scopeId ns key afterId (some limit) =
            db.logAfter scopeId ns key (afterId.getD (-1)) := by
          simp [FunctionStorageSqlite.stateLogScan, FunctionStorageSqlite.sqlLimit, negative]
        refine .of_same rfl handled next (lift _ _ (rows ▸ sameRows)) ?_
        intro zero
        cases zero
        cases negative
      · obtain ⟨after, read, handled, next, sameRows⟩ := unlimited rfl
        have cfDo : Turn.cfDo ⟨.stateLogScan scopeId ns key afterId (some 0),
            .stateLogScan scopeId ns key renamedAfter (some 0), around, db, state⟩ =
            (after, .ok (.logRows read)) := handled
        have sqlite : Turn.sqlite (⟨.stateLogScan scopeId ns key afterId (some 0),
            .stateLogScan scopeId ns key renamedAfter (some 0), around, db, state⟩ : Turn object) =
            (db, .ok (.logRows [])) := by
          simp [Turn.sqlite, FunctionStorageSqlite.perform, FunctionStorageSqlite.stateLogScan,
            FunctionStorageSqlite.sqlLimit]
        refine ⟨?_, ?_, ?_⟩
        · rw [sqlite, cfDo]
          exact next
        · intro agrees
          have empty : db.logAfter scopeId ns key (afterId.getD (-1)) = [] := agrees rfl
          rw [sqlite, cfDo]
          exact lift _ _ (empty ▸ sameRows)
        · intro disagrees any sameEmpty
          rw [sqlite, cfDo] at sameEmpty
          have none : read = [] := List.forall₂_nil_left_iff.mp sameEmpty
          rw [none] at sameRows
          exact disagrees fun _ => List.forall₂_nil_right_iff.mp sameRows
      · have limited := contract.stateLogScanLimited state (bytesToB64 scopeId) (bytesToB64 ns)
          (bytesToB64 key) (renamedAfter.getD (-1)) limit positive
        have sent : FunctionStorageCfDo.sentLimit (some limit) = some limit := by
          simp [FunctionStorageCfDo.sentLimit, positive]
        obtain ⟨after, read, handled, next, sameRows⟩ := logScan_next alike around arrives scopeId ns
          key renamedAfter (some limit) _ _
          (by rw [sent]; exact limited)
          (List.forall₂_take limit.toNat related)
        have rows : FunctionStorageSqlite.stateLogScan db scopeId ns key afterId (some limit) =
            (db.logAfter scopeId ns key (afterId.getD (-1))).take limit.toNat := by
          simp [FunctionStorageSqlite.stateLogScan, FunctionStorageSqlite.sqlLimit,
            Int.not_lt.mpr (Int.le_of_lt positive)]
        refine .of_same rfl handled next (lift _ _ (rows ▸ sameRows)) ?_
        intro zero
        cases zero
        cases positive

/-! ### Paged calls -/

/-- A row read back from base64. -/
private def decodeRow (row : Text × Text) : Bytes × Bytes :=
  ((b64ToBytes? row.1).getD [], (b64ToBytes? row.2).getD [])

omit arrives fresh in
/-- The pages hold the worker rows of SQLite, in some order. -/
private theorem pages_rows (executionId : Bytes) :
    (contract.pages state (bytesToB64 executionId) (bytesToB64 nsWorker)).flatten.Perm
      ((db.entries executionId nsWorker).map fun row => (bytesToB64 row.1, bytesToB64 row.2)) :=
  (contract.pagesRows state _ _).trans
    (alike.renames.entries bytesToB64_injective' executionId nsWorker)

omit arrives fresh in
private theorem pages_decode (executionId : Bytes) (row : Text × Text)
    (member : row ∈ (contract.pages state (bytesToB64 executionId) (bytesToB64 nsWorker)).flatten) :
    FunctionStorageCfDo.readRow row = .ok (decodeRow row) := by
  obtain ⟨source, _, rfl⟩ := List.mem_map.mp ((pages_rows alike executionId).mem_iff.mp member)
  simp [FunctionStorageCfDo.readRow, decodeRow, b64ToBytes_bytesToB64, b64ToBytes?_bytesToB64]

omit arrives fresh in
/-- All the rows are read exactly when no page stops the loop early. -/
private theorem read_perm_iff (executionId : Bytes) :
    ((FunctionStorageSqlite.inKeyOrder (db.entries executionId nsWorker)).length = (readPages
        (contract.pages state (bytesToB64 executionId) (bytesToB64 nsWorker))).length ↔
      PagesContinue (contract.pages state (bytesToB64 executionId) (bytesToB64 nsWorker))) ∧
    (PagesContinue (contract.pages state (bytesToB64 executionId) (bytesToB64 nsWorker)) →
      (FunctionStorageSqlite.inKeyOrder (db.entries executionId nsWorker)).Perm ((readPages
        (contract.pages state (bytesToB64 executionId) (bytesToB64 nsWorker))).map decodeRow)) := by
  have ordered := FunctionStorageSqlite.inKeyOrder_perm (db.entries executionId nsWorker)
  have rows := pages_rows alike executionId
  have decoded := rows.map decodeRow
  have back : ((db.entries executionId nsWorker).map fun row =>
      (bytesToB64 row.1, bytesToB64 row.2)).map decodeRow = db.entries executionId nsWorker := by
    simp [decodeRow, b64ToBytes?_bytesToB64, Function.comp_def]
  rw [back] at decoded
  constructor
  · rw [← readPages_eq_flatten_iff]
    have total := rows.length_eq
    rw [List.length_map] at total
    rw [ordered.length_eq, ← total]
    exact ⟨fun same => (readPages_isPrefix _).eq_of_length same.symm, fun same => by rw [same]⟩
  · intro continues
    rw [(readPages_eq_flatten_iff _).mpr continues]
    exact ordered.trans decoded.symm

private theorem sound_workerCollect (executionId : Bytes)
    (covers : (contract.pages state (bytesToB64 executionId) (bytesToB64 nsWorker)).length ≤
      around.pageBound) :
    TurnSound contract issued used
      ⟨.workerCollect executionId, .workerCollect executionId, around, db, state⟩ := by
  obtain ⟨after, reads, settled, seen⟩ := FunctionStorageCfDo.pagesFrom_serves contract around
    arrives _ _ decodeRow
    (contract.stateDrain state (bytesToB64 executionId) (bytesToB64 nsWorker) around.attemptId
      (unseen alike around fresh))
    (pages_decode alike executionId) around.pageBound 0 [] covers
  have cfDo : Turn.cfDo ⟨.workerCollect executionId, .workerCollect executionId, around, db, state⟩ =
      (after, .ok (.states (((readPages (contract.pages state (bytesToB64 executionId)
        (bytesToB64 nsWorker))).map decodeRow).map (·.2)))) := by
    simp only [Turn.cfDo, FunctionStorageCfDo.perform, FunctionStorageCfDo.workerCollect,
      FunctionStorageCfDo.statePaged, reads, List.nil_append]
    rfl
  have sqlite : Turn.sqlite (⟨.workerCollect executionId, .workerCollect executionId, around, db,
      state⟩ : Turn object) =
      (db.drain executionId nsWorker,
        .ok (.states ((FunctionStorageSqlite.inKeyOrder (db.entries executionId nsWorker)).map
          (·.2)))) := rfl
  obtain ⟨lengths, perm⟩ := read_perm_iff alike executionId
  refine ⟨?_, ?_, ?_⟩
  · rw [sqlite, cfDo]
    refine alike.next around.attemptId
      (alike.renames.drain bytesToB64_injective' executionId nsWorker)
      (alike.keyed.drain executionId nsWorker) rfl rfl settled ?_
    intro id now
    exact (seen id now).imp_right fun ⟨_, own⟩ => (Option.some.inj own).symm
  · intro continues
    rw [sqlite, cfDo]
    exact (perm continues).map (·.2)
  · intro stops any same
    rw [sqlite, cfDo] at same
    have length := List.Perm.length_eq same
    rw [List.length_map, List.length_map, List.length_map] at length
    exact stops (lengths.mp length)

omit fresh in
private theorem sound_workerScan (executionId : Bytes)
    (covers : (contract.pages state (bytesToB64 executionId) (bytesToB64 nsWorker)).length ≤
      around.pageBound) :
    TurnSound contract issued used
      ⟨.workerScan executionId, .workerScan executionId, around, db, state⟩ := by
  obtain ⟨after, reads, settled, seen⟩ := FunctionStorageCfDo.pagesFrom_serves contract around
    arrives _ _ decodeRow
    (contract.stateScan state (bytesToB64 executionId) (bytesToB64 nsWorker))
    (pages_decode alike executionId) around.pageBound 0 [] covers
  have cfDo : Turn.cfDo ⟨.workerScan executionId, .workerScan executionId, around, db, state⟩ =
      (after, .ok (.workers (((readPages (contract.pages state (bytesToB64 executionId)
        (bytesToB64 nsWorker))).map decodeRow).map fun row => (int64FromKey row.1, row.2)))) := by
    simp only [Turn.cfDo, FunctionStorageCfDo.perform, FunctionStorageCfDo.workerScan,
      FunctionStorageCfDo.statePaged, reads, List.nil_append]
    rfl
  have sqlite : Turn.sqlite (⟨.workerScan executionId, .workerScan executionId, around, db,
      state⟩ : Turn object) =
      (db, .ok (.workers ((FunctionStorageSqlite.inKeyOrder (db.entries executionId nsWorker)).map
        fun row => (int64FromKey row.1, row.2)))) := rfl
  obtain ⟨lengths, perm⟩ := read_perm_iff alike executionId
  refine ⟨?_, ?_, ?_⟩
  · rw [sqlite, cfDo]
    refine alike.next around.attemptId alike.renames alike.keyed rfl rfl settled ?_
    intro id now
    exact (seen id now).imp_right fun ⟨_, own⟩ => by cases own
  · intro continues
    rw [sqlite, cfDo]
    exact (perm continues).map _
  · intro stops any same
    rw [sqlite, cfDo] at same
    have length := List.Perm.length_eq same
    rw [List.length_map, List.length_map, List.length_map] at length
    exact stops (lengths.mp length)

/-- Every call keeps the states alike, and its answers are the same exactly when it agrees. -/
theorem turnSound (operation renamed : Operation) (same : SameCall issued operation renamed)
    (covers : ∀ executionId ∈ operation.paged?,
      (contract.pages state (bytesToB64 executionId) (bytesToB64 nsWorker)).length ≤
        around.pageBound) :
    TurnSound contract issued used ⟨operation, renamed, around, db, state⟩ := by
  cases operation with
  | stateLogScan scopeId ns key afterId limit =>
      exact sound_stateLogScan alike around arrives scopeId ns key afterId limit renamed same
  | workerPut executionId worker value =>
      cases same
      exact sound_workerPut alike around arrives fresh executionId worker value
  | workerCollect executionId =>
      cases same
      exact sound_workerCollect alike around arrives fresh executionId (covers executionId rfl)
  | workerScan executionId =>
      cases same
      exact sound_workerScan alike around arrives executionId (covers executionId rfl)
  | queuePush executionId items =>
      cases same
      exact sound_queuePush alike around arrives fresh executionId items
  | queuePop executionId =>
      cases same
      exact sound_queuePop alike around arrives fresh executionId
  | queueClear executionId =>
      cases same
      exact sound_queueClear alike around arrives fresh executionId
  | stateGet scopeId ns key =>
      cases same
      exact sound_stateGet alike around arrives scopeId ns key
  | statePut scopeId ns key value =>
      cases same
      exact sound_statePut alike around arrives fresh scopeId ns key value
  | stateAppend scopeId ns key item =>
      cases same
      exact sound_stateAppend alike around arrives fresh scopeId ns key item
  | executionClear scopeId =>
      cases same
      exact sound_executionClear alike around arrives fresh scopeId

end Calls

/-! ## Whole runs -/

theorem issuedIn_append (turns : List (Turn object)) (turn : Turn object) :
    issuedIn (turns ++ [turn]) = issuedIn turns ++ newIds turn.sqlite.2 turn.cfDo.2 := by
  simp [issuedIn]

private theorem BothRun.unused {turns : List (Turn object)} {around : Surroundings}
    (fresh : ∀ turn ∈ turns, turn.around.attemptId ≠ around.attemptId) :
    around.attemptId ∉ turns.map (·.around.attemptId) := by
  intro member
  obtain ⟨turn, inside, same⟩ := List.mem_map.mp member
  exact fresh turn inside same

theorem BothRun.alike {turns : List (Turn object)} {db : SqliteDb} {state : object.State}
    (run : BothRun contract turns db state) :
    Alike contract (issuedIn turns) (turns.map (·.around.attemptId)) db state := by
  induction run with
  | start => exact alike_start
  | call _ operation renamed around same fresh arrives covers ih =>
      have sound := turnSound ih around arrives (BothRun.unused fresh) operation renamed same covers
      rw [issuedIn_append, List.map_append]
      exact sound.alike

private theorem BothRun.answers {turns : List (Turn object)} {db : SqliteDb}
    {state : object.State} (run : BothRun contract turns db state) :
    ∀ turn ∈ turns,
      (turn.Agrees contract → SameOutcome (issuedIn turns) turn.sqlite.2 turn.cfDo.2) ∧
        (¬ turn.Agrees contract → ∀ any, ¬ SameOutcome any turn.sqlite.2 turn.cfDo.2) := by
  induction run with
  | start => simp
  | call earlier operation renamed around same fresh arrives covers ih =>
      have sound := turnSound earlier.alike around arrives (BothRun.unused fresh) operation renamed
        same covers
      intro turn member
      rw [issuedIn_append]
      rcases List.mem_append.mp member with before | last
      · obtain ⟨agreed, differed⟩ := ih turn before
        exact ⟨fun agrees => sameOutcome_append _ _ _ _ (agreed agrees), differed⟩
      · cases List.mem_singleton.mp last
        exact ⟨sound.agrees, sound.differs⟩

/-- The log ids correspond in order, and the answers of a call are the same exactly when
neither an empty item nor a zero limit nor an early empty key is in its way. -/
theorem backends_interchangeable (object : DurableObject) (contract : object.Contract)
    (turns : List (Turn object)) (db : SqliteDb) (state : object.State)
    (run : BothRun contract turns db state) :
    (issuedIn turns).Pairwise (fun left right => left.1 < right.1 ∧ left.2 < right.2) ∧
      ∀ turn ∈ turns,
        SameOutcome (issuedIn turns) turn.sqlite.2 turn.cfDo.2 ↔ turn.Agrees contract := by
  refine ⟨run.alike.ascending, ?_⟩
  intro turn member
  obtain ⟨agreed, differed⟩ := run.answers turn member
  constructor
  · intro same
    by_contra disagrees
    exact differed disagrees _ same
  · exact agreed

/-- One attempt of the request is lost on its way back. -/
def sampleTurn (operation : Operation) (id : Nat) (db : SqliteDb) (state : referenceObject.State) :
    Turn referenceObject where
  operation := operation
  renamed := operation
  around :=
    { attemptId := Number.decimal id, network := fun _ => (.answerLost, .answered), pageBound := 1 }
  db := db
  state := state

def pushesEmpty : Turn referenceObject :=
  sampleTurn (.queuePush [1] [[]]) 0 Tables.empty referenceObject.initial

def popsEmpty : Turn referenceObject :=
  sampleTurn (.queuePop [1]) 1 pushesEmpty.sqlite.1 pushesEmpty.cfDo.1

theorem bothRun_empty_item :
    BothRun referenceContract [pushesEmpty, popsEmpty] popsEmpty.sqlite.1 popsEmpty.cfDo.1 := by
  have arrives (id : Nat) : (sampleTurn (.queuePop [1]) id Tables.empty
      referenceObject.initial).around.Arrives := fun _ => .inr rfl
  have pushed : BothRun referenceContract [pushesEmpty] pushesEmpty.sqlite.1 pushesEmpty.cfDo.1 :=
    .call .start _ _ _ rfl (by simp) (arrives 0) (by simp [Operation.paged?])
  refine .call pushed _ _ _ rfl ?_ (arrives 1) (by simp [Operation.paged?])
  intro turn member
  cases List.mem_singleton.mp member
  decide

theorem backends_interchangeable_sample :
    SameOutcome (issuedIn [pushesEmpty, popsEmpty]) pushesEmpty.sqlite.2 pushesEmpty.cfDo.2 :=
  ((backends_interchangeable referenceObject referenceContract _ _ _ bothRun_empty_item).2
    pushesEmpty List.mem_cons_self).mpr trivial

/-- SQLite pops the empty item and the client of the durable object answers null. -/
theorem empty_item_pops_null :
    ¬ ∀ (object : DurableObject) (contract : object.Contract) (turns : List (Turn object))
      (db : SqliteDb) (state : object.State), BothRun contract turns db state →
      ∀ turn ∈ turns, SameOutcome (issuedIn turns) turn.sqlite.2 turn.cfDo.2 := by
  intro claim
  have same := claim referenceObject referenceContract _ _ _ bothRun_empty_item popsEmpty
    (List.mem_cons_of_mem _ List.mem_cons_self)
  have sqlite : popsEmpty.sqlite.2 = .ok (.value (some [])) := by rfl
  have cfDo : popsEmpty.cfDo.2 = .ok (.value none) := by rfl
  rw [sqlite, cfDo] at same
  cases same

end VgiWorker.Storage
