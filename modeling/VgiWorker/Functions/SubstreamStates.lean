import VgiWorker.Functions.ContinuedOutput
import VgiWorker.Storage.WorkerStates

/-!
# Substream states at finalize

The substreams of one execution run their turns in any order, each persisting
its state in a row of the shared storage; FINALIZE drains the rows.
-/

set_option autoImplicit false

namespace VgiWorker.Functions

open VgiWorker.Js VgiWorker.Arrow VgiWorker.Protocol VgiWorker.Storage

variable {Substream State : Type} [DecidableEq Substream]

/-- `completed` lists the state of each substream after each turn it completed. -/
structure Execution (Substream State : Type) where
  db : SqliteDb
  streams : Substream → Stream State
  completed : Substream → List (Option State)

/-- What arrives for a substream, and whether the storage takes a write in that turn. -/
structure SubstreamTurn (State : Type) where
  fromToken : Bool
  input : TurnInput
  hooks : TurnHooks State
  frame : ExchangeFrame
  storageFails : Bool

inductive ExecutionStep (Substream State : Type) where
  | turn (substream : Substream) (arrives : SubstreamTurn State)
  /-- Anything else that the storage is asked for. -/
  | other (operation : Operation)

/-- `BoundStorage.put` of a substream that has an id. -/
def boundPut (executionId substreamId : Bytes) (storageFails : Bool) (db : SqliteDb)
    (state : Bytes) : Except Text SqliteDb :=
  if storageFails then .error (text "storage failed")
  else
    match FunctionStorageSqlite.workerPut db executionId (.bytes substreamId) state with
    | .ok after => .ok after
    | .error _ => .error (text "storage failed")

section

variable (config : TableInOutConfig State) (executionId : Bytes)
  (substreamId : Substream → Bytes) (initialState : Substream → Option State)

def SubstreamTurn.streamTurn (arrives : SubstreamTurn State) (substream : Substream) :
    StreamTurn State SqliteDb where
  fromToken := arrives.fromToken
  input := arrives.input
  hooks := arrives.hooks
  initialState := initialState substream
  put := boundPut executionId (substreamId substream) arrives.storageFails
  frame := arrives.frame

def Execution.start (frame : Substream → ExchangeFrame) : Execution Substream State where
  db := Tables.empty
  streams := fun substream => startStream config (frame substream) (initialState substream)
  completed := fun _ => []

def Execution.step (execution : Execution Substream State) :
    ExecutionStep Substream State → Execution Substream State
  | .turn substream arrives =>
      let (stream, db, result) := serveTurn config (execution.streams substream) execution.db
        (arrives.streamTurn executionId substreamId initialState substream)
      { db := db
        streams := Function.update execution.streams substream stream
        completed :=
          match result with
          | .ok _ =>
              Function.update execution.completed substream
                (execution.completed substream ++ [stream.memory.state])
          | .error _ => execution.completed }
  | .other operation =>
      { execution with db := (FunctionStorageSqlite.perform execution.db operation).1 }

def Execution.run (execution : Execution Substream State)
    (steps : List (ExecutionStep Substream State)) : Execution Substream State :=
  steps.foldl (Execution.step config executionId substreamId initialState) execution

/-- The states that `finalize()` gets; `fresh` is what `initialState` gives the FINALIZE stream. -/
def finalizeStates (fresh : Option State) (db : SqliteDb) : Except Text (List (Option State)) := do
  let states ← (FunctionStorageSqlite.workerCollect db executionId).2.mapM
    config.deserializeUserState
  match states with
  | [] => .ok [fresh]
  | _ => .ok (states.map some)

end

/-- The state of a substream after its last completed turn. -/
def Execution.finalState (execution : Execution Substream State) (substream : Substream) :
    Option State :=
  (execution.completed substream).getLast?.join

/-- The storage holds a serialized state apart from every other. -/
def Survives (config : TableInOutConfig State) : Prop :=
  ∀ state, ∃ bytes, config.serializeUserState state = .ok bytes ∧
    config.deserializeUserState bytes = .ok state

/-- Turns of the given substreams, and operations that leave the worker state alone. -/
def ExecutionStep.Within (executionId : Bytes) (substreams : List Substream) :
    ExecutionStep Substream State → Prop
  | .turn substream _ => substream ∈ substreams
  | .other operation => operation.SparesWorkers executionId

/-! ## One turn -/

/-- A stream that has a state, wherever it is kept, or has none anywhere. -/
structure Stream.HasState (stream : Stream State) (present : Bool) : Prop where
  memory : stream.memory.state.isSome = present
  token : ∀ token ∈ stream.token, ∀ frame, ExchangeFrame.deserialize token = .ok frame →
    frame.userState.isSome = present

private theorem mint_succeeds (config : TableInOutConfig State) (survives : Survives config)
    (frame : ExchangeFrame) (exchange : ExchangeState State) :
    ∃ token, mintToken config frame exchange = .ok token := by
  refine except_bind_exists _ _ ?_ fun userState _ => ⟨_, rfl⟩
  cases exchange.state with
  | none => exact ⟨none, rfl⟩
  | some state =>
      obtain ⟨bytes, serialized, _⟩ := survives state
      refine ⟨some bytes, ?_⟩
      simp only [Option.mapM_some, serialized]
      rfl

private theorem isSome_of_mapM {α β : Type} (step : α → Except Text β) (value : Option α)
    (result : Option β) (success : value.mapM step = .ok result) :
    result.isSome = value.isSome := by
  cases value with
  | none =>
      cases success
      rfl
  | some held =>
      rw [Option.mapM_some] at success
      obtain ⟨_, _, success⟩ := except_bind_ok _ _ _ success
      cases success
      rfl

private theorem hasState_of_mint (config : TableInOutConfig State) (frame : ExchangeFrame)
    (exchange : ExchangeState State) (token : Option Bytes)
    (minted : ∀ held ∈ token, mintToken config frame exchange = .ok held) :
    Stream.HasState ⟨exchange, token⟩ exchange.state.isSome := by
  refine ⟨rfl, fun held member restored reads => ?_⟩
  obtain ⟨userState, carried, rest⟩ := except_bind_ok _ _ _ (minted held member)
  cases rest
  exact (ExchangeFrame.flags_of_deserialize _ _ reads).2.trans (isSome_of_mapM _ _ _ carried)

/-- A stream keeps whether it has a state; a turn it completes has that state persisted, and a turn
that throws leaves the storage alone. -/
private theorem serveTurn_state {Store : Type} (config : TableInOutConfig State)
    (survives : Survives config) (stream next : Stream State) (store after : Store)
    (turn : StreamTurn State Store) (held : stream.HasState turn.initialState.isSome)
    (result : Except Text Answered)
    (serves : serveTurn config stream store turn = (next, after, result)) :
    next.HasState turn.initialState.isSome ∧
      match result with
      | .error _ => after = store
      | .ok _ => persistState config turn.put next.memory.state store = .ok after := by
  have answers (exchange : ExchangeState State) (answered : Answered)
      (result : (exchangeOf config turn exchange store).1.result = .ok answered) :
      (exchangeOf config turn exchange store).1.exchange.state.isSome = exchange.state.isSome ∧
        persistState config turn.put (exchangeOf config turn exchange store).1.exchange.state store =
          .ok (exchangeOf config turn exchange store).2 := by
    rcases exchangeOf_cases config turn exchange store with ⟨_, _, failed, _⟩ |
      ⟨_, _, _, _, ⟨after, persisted, answers⟩ | ⟨_, _, failed⟩⟩
    · rw [failed] at result
      cases result
    · rw [answers]
      exact ⟨by simp, persisted⟩
    · rw [failed] at result
      cases result
  rcases serveTurn_cases config stream next store after turn result serves with
    ⟨rfl, ⟨message, rfl⟩, same⟩ |
    ⟨token, exchange, answered, minted, _, carried, restored, answer, rfl, mints, rfl, rfl⟩ |
    ⟨message, _, answer, rfl, rfl, rfl⟩ | ⟨answered, _, answer, rfl, rfl, rfl⟩
  · refine ⟨held, ?_⟩
    rcases same with same | ⟨exchange, message, failed⟩
    · exact same
    · obtain ⟨token, mints⟩ := mint_succeeds config survives turn.frame exchange
      rw [mints] at failed
      cases failed
  · have present : exchange.state.isSome = turn.initialState.isSome := by
      obtain ⟨frame, reads, rest⟩ := except_bind_ok _ _ _ restored
      obtain ⟨userState, states, rest⟩ := except_bind_ok _ _ _ rest
      cases rest
      have carriedState := (isSome_of_mapM _ _ _ states).trans (held.token token carried frame reads)
      cases userState with
      | none => rfl
      | some state => exact carriedState
    obtain ⟨kept, persisted⟩ := answers exchange answered answer
    refine ⟨?_, persisted⟩
    rw [← present, ← kept]
    exact hasState_of_mint config turn.frame _ _ fun other member => by
      cases member
      exact mints
  · refine ⟨⟨?_, held.token⟩, store_of_error config turn _ store message answer⟩
    rcases exchangeOf_cases config turn stream.memory store with ⟨_, state, failed, kept⟩ |
      ⟨_, _, _, _, ⟨_, _, answered⟩ | ⟨_, _, failed⟩⟩
    · rw [failed]
      exact kept.trans held.memory
    · rw [answered] at answer
      cases answer
    · rw [failed]
      simpa using held.memory
  · obtain ⟨kept, persisted⟩ := answers stream.memory answered answer
    refine ⟨?_, persisted⟩
    rw [← held.memory, ← kept]
    exact hasState_of_mint config turn.frame _ _ fun other member => mem_toOption _ _ member

/-! ## A whole execution -/

/-- Each stream knows whether it has a state, and the worker rows are one per substream that
completed a turn with a state, holding the state of its last. -/
structure Execution.Consistent (config : TableInOutConfig State) (executionId : Bytes)
    (substreamId : Substream → Bytes) (initialState : Substream → Option State)
    (substreams : List Substream) (execution : Execution Substream State) : Prop where
  streams : ∀ substream, (execution.streams substream).HasState (initialState substream).isSome
  completed : ∀ substream, ∀ state ∈ execution.completed substream,
    state.isSome = (initialState substream).isSome
  rows : ∀ key value, (key, value) ∈ execution.db.entries executionId nsWorker ↔
    ∃ substream ∈ substreams, key = substreamId substream ∧
      ∃ state, execution.finalState substream = some state ∧
        config.serializeUserState state = .ok value
  keys : ((execution.db.entries executionId nsWorker).map Prod.fst).Nodup

section

variable (config : TableInOutConfig State) (executionId : Bytes)
  (substreamId : Substream → Bytes) (initialState : Substream → Option State)
  (substreams : List Substream)

omit [DecidableEq Substream] in
private theorem consistent_start (frame : Substream → ExchangeFrame) :
    (Execution.start config initialState frame).Consistent config executionId substreamId
      initialState substreams where
  streams := fun substream => hasState_of_mint config (frame substream) ⟨initialState substream, false⟩
    _ fun held member => mem_toOption _ _ member
  completed := fun substream state member => by cases member
  rows := by
    intro key value
    simp [Execution.start, Tables.entries, Tables.empty, Execution.finalState]
  keys := by simp [Execution.start, Tables.entries, Tables.empty]

/-- What a completed turn leaves in the storage. -/
private theorem boundPut_ok (executionId substreamId : Bytes) (storageFails : Bool)
    (db after : SqliteDb) (bytes : Bytes)
    (written : boundPut executionId substreamId storageFails db bytes = .ok after) :
    after = db.put executionId nsWorker substreamId bytes := by
  unfold boundPut at written
  split at written
  · cases written
  · simp only [FunctionStorageSqlite.workerPut, workerStateKey, except_ok_bind] at written
    cases written
    rfl

private theorem persisted_none {Store : Type} (put : Store → Bytes → Except Text Store)
    (store after : Store) (persisted : persistState config put none store = .ok after) :
    after = store := by
  unfold persistState at persisted
  split at persisted
  · rename_i absent
    cases absent
  · cases persisted
    rfl

private theorem persisted_some {Store : Type} (put : Store → Bytes → Except Text Store)
    (state : State) (store after : Store) (finalizes : config.hasFinalize = true)
    (persisted : persistState config put (some state) store = .ok after) :
    ∃ bytes, config.serializeUserState state = .ok bytes ∧ put store bytes = .ok after := by
  simp only [persistState, finalizes] at persisted
  exact except_bind_ok _ _ _ persisted

private theorem finalState_update (execution : Execution Substream State)
    (substream other : Substream) (streams : Substream → Stream State) (db : SqliteDb)
    (state : Option State) :
    Execution.finalState ⟨db, streams, Function.update execution.completed substream
        (execution.completed substream ++ [state])⟩ other =
      if other = substream then state else execution.finalState other := by
  by_cases same : other = substream
  · subst same
    simp [Execution.finalState]
  · simp [Execution.finalState, same]

omit [DecidableEq Substream] in
private theorem finalState_stateless (execution : Execution Substream State)
    (substream : Substream)
    (stateless : ∀ state ∈ execution.completed substream, state.isSome = false) :
    execution.finalState substream = none := by
  unfold Execution.finalState
  cases last : (execution.completed substream).getLast? with
  | none => rfl
  | some held => simpa using stateless held (List.mem_of_getLast? last)

/-- The rows after an upsert of the state that a substream completed a turn with. -/
private theorem rows_put (injective : Function.Injective substreamId)
    (execution : Execution Substream State) (streams : Substream → Stream State)
    (substream : Substream) (listed : substream ∈ substreams) (state : State) (bytes : Bytes)
    (serialized : config.serializeUserState state = .ok bytes)
    (rows : ∀ key value, (key, value) ∈ execution.db.entries executionId nsWorker ↔
      ∃ substream ∈ substreams, key = substreamId substream ∧
        ∃ state, execution.finalState substream = some state ∧
          config.serializeUserState state = .ok value) (db : SqliteDb) (key value : Bytes) :
    (key, value) ∈ (execution.db.put executionId nsWorker (substreamId substream) bytes).entries
        executionId nsWorker ↔
      ∃ other ∈ substreams, key = substreamId other ∧
        ∃ held, Execution.finalState ⟨db, streams, Function.update execution.completed substream
            (execution.completed substream ++ [some state])⟩ other = some held ∧
          config.serializeUserState held = .ok value := by
  simp only [finalState_update, Tables.mem_entries_put, rows]
  constructor
  · rintro (⟨different, other, member, rfl, held, final, written⟩ | ⟨rfl, rfl⟩)
    · have apart : other ≠ substream := fun same => different (congrArg substreamId same)
      exact ⟨other, member, rfl, held, by rw [if_neg apart]; exact final, written⟩
    · exact ⟨substream, listed, rfl, state, by rw [if_pos rfl], serialized⟩
  · rintro ⟨other, member, rfl, held, final, written⟩
    by_cases same : other = substream
    · subst same
      rw [if_pos rfl] at final
      cases final
      rw [serialized] at written
      cases written
      exact Or.inr ⟨rfl, rfl⟩
    · rw [if_neg same] at final
      exact Or.inl ⟨fun clash => same (injective clash), other, member, rfl, held, final, written⟩

private theorem step_turn (execution : Execution Substream State) (next : Stream State)
    (db : SqliteDb) (substream : Substream) (arrives : SubstreamTurn State)
    (result : Except Text Answered)
    (serves : serveTurn config (execution.streams substream) execution.db
      (arrives.streamTurn executionId substreamId initialState substream) = (next, db, result)) :
    execution.step config executionId substreamId initialState (.turn substream arrives) =
      ⟨db, Function.update execution.streams substream next,
        match result with
        | .ok _ =>
            Function.update execution.completed substream
              (execution.completed substream ++ [next.memory.state])
        | .error _ => execution.completed⟩ := by
  simp only [Execution.step, serves]
  cases result <;> rfl

private theorem consistent_step (survives : Survives config) (finalizes : config.hasFinalize = true)
    (injective : Function.Injective substreamId) (execution : Execution Substream State)
    (consistent : execution.Consistent config executionId substreamId initialState substreams)
    (step : ExecutionStep Substream State) (within : step.Within executionId substreams) :
    (execution.step config executionId substreamId initialState step).Consistent config executionId
      substreamId initialState substreams := by
  cases step with
  | other operation =>
      have same := entries_perform execution.db executionId operation within
      have rows := consistent.rows
      have keys := consistent.keys
      rw [← same] at rows keys
      exact ⟨consistent.streams, consistent.completed, rows, keys⟩
  | turn substream arrives =>
      let turn := arrives.streamTurn executionId substreamId initialState substream
      obtain ⟨next, db, result, serves⟩ : ∃ next db result,
          serveTurn config (execution.streams substream) execution.db turn = (next, db, result) :=
        ⟨_, _, _, rfl⟩
      obtain ⟨kept, left⟩ := serveTurn_state config survives _ next execution.db db turn
        (consistent.streams substream) result serves
      have streams : ∀ other, (Function.update execution.streams substream next other).HasState
          (initialState other).isSome := by
        intro other
        by_cases same : other = substream
        · subst same
          rw [Function.update_self]
          exact kept
        · rw [Function.update_of_ne same]
          exact consistent.streams other
      rw [step_turn config executionId substreamId initialState execution next db substream arrives
        result serves]
      cases result with
      | error message =>
          cases left
          exact ⟨streams, consistent.completed, consistent.rows, consistent.keys⟩
      | ok answered =>
          have completed : ∀ other, ∀ state ∈ Function.update execution.completed substream
              (execution.completed substream ++ [next.memory.state]) other,
              state.isSome = (initialState other).isSome := by
            intro other state member
            by_cases same : other = substream
            · subst same
              rw [Function.update_self] at member
              rcases List.mem_append.mp member with before | here
              · exact consistent.completed other state before
              · rw [List.mem_singleton.mp here]
                exact kept.memory
            · rw [Function.update_of_ne same] at member
              exact consistent.completed other state member
          have listed : substream ∈ substreams := within
          cases state : next.memory.state with
          | none =>
              rw [state] at left completed
              cases persisted_none config turn.put execution.db db left
              refine ⟨streams, completed, fun key value => ?_, consistent.keys⟩
              have absent : execution.finalState substream = none := by
                have stateless := kept.memory
                rw [state] at stateless
                exact finalState_stateless execution substream fun held member =>
                  (consistent.completed substream held member).trans stateless.symm
              rw [consistent.rows key value]
              refine exists_congr fun other => ?_
              rw [finalState_update]
              by_cases same : other = substream
              · subst same
                rw [if_pos rfl, absent]
              · rw [if_neg same]
          | some state' =>
              rw [state] at left completed
              obtain ⟨bytes, serialized, written⟩ :=
                persisted_some config turn.put state' execution.db db finalizes left
              cases boundPut_ok _ _ _ _ _ _ written
              exact ⟨streams, completed,
                rows_put config executionId substreamId substreams injective execution _ substream
                  listed state' bytes serialized consistent.rows _,
                Tables.nodup_entries_put execution.db executionId nsWorker _ bytes consistent.keys⟩

private theorem consistent_run (survives : Survives config) (finalizes : config.hasFinalize = true)
    (injective : Function.Injective substreamId) (steps : List (ExecutionStep Substream State))
    (within : ∀ step ∈ steps, step.Within executionId substreams)
    (execution : Execution Substream State)
    (consistent : execution.Consistent config executionId substreamId initialState substreams) :
    (execution.run config executionId substreamId initialState steps).Consistent config executionId
      substreamId initialState substreams := by
  induction steps generalizing execution with
  | nil => exact consistent
  | cons step rest ih =>
      exact ih (fun other member => within other (List.mem_cons_of_mem _ member)) _
        (consistent_step config executionId substreamId initialState substreams survives finalizes
          injective execution consistent step (within step List.mem_cons_self))

/-! ## What `finalize()` gets -/

/-- The row that a substream with a final state leaves. -/
def Execution.row (execution : Execution Substream State) (substream : Substream) :
    Option (Bytes × Bytes) :=
  (execution.finalState substream).bind fun state =>
    (config.serializeUserState state).toOption.map fun bytes => (substreamId substream, bytes)

omit [DecidableEq Substream] in
private theorem row_eq_some (execution : Execution Substream State) (substream : Substream)
    (key value : Bytes) :
    execution.row config substreamId substream = some (key, value) ↔
      key = substreamId substream ∧ ∃ state, execution.finalState substream = some state ∧
        config.serializeUserState state = .ok value := by
  unfold Execution.row
  cases final : execution.finalState substream with
  | none => simp
  | some state =>
      cases serialized : config.serializeUserState state with
      | error message => simp [serialized, Except.toOption]
      | ok bytes =>
          simp only [serialized, Except.toOption, Option.bind_some, Option.map_some,
            Option.some.injEq, Prod.mk.injEq]
          constructor
          · rintro ⟨rfl, rfl⟩
            exact ⟨rfl, state, rfl, serialized⟩
          · rintro ⟨rfl, held, rfl, written⟩
            rw [serialized] at written
            cases written
            exact ⟨rfl, rfl⟩

omit [DecidableEq Substream] in
private theorem perm_rows (injective : Function.Injective substreamId)
    (nodup : substreams.Nodup) (execution : Execution Substream State)
    (consistent : execution.Consistent config executionId substreamId initialState substreams) :
    (execution.db.entries executionId nsWorker).Perm
      (substreams.filterMap (execution.row config substreamId)) := by
  refine (List.perm_ext_iff_of_nodup consistent.keys.of_map ?_).mpr ?_
  · refine nodup.filterMap fun first second row here there => ?_
    obtain ⟨key, value⟩ := row
    have same := (row_eq_some config substreamId execution first key value).mp here
    have other := (row_eq_some config substreamId execution second key value).mp there
    exact injective (same.1.symm.trans other.1)
  · rintro ⟨key, value⟩
    rw [consistent.rows key value, List.mem_filterMap]
    simp only [row_eq_some]

omit [DecidableEq Substream] in
/-- Reading the rows back gives the final states. -/
private theorem mapM_rows (survives : Survives config) (execution : Execution Substream State) :
    ((substreams.filterMap (execution.row config substreamId)).map Prod.snd).mapM
        config.deserializeUserState =
      .ok (substreams.filterMap execution.finalState) := by
  induction substreams with
  | nil => rfl
  | cons substream rest ih =>
      cases final : execution.finalState substream with
      | none =>
          have absent : execution.row config substreamId substream = none := by
            simp [Execution.row, final]
          rw [List.filterMap_cons_none absent, List.filterMap_cons_none final]
          exact ih
      | some state =>
          obtain ⟨bytes, serialized, reads⟩ := survives state
          have present : execution.row config substreamId substream =
              some (substreamId substream, bytes) := by
            simp [Execution.row, final, serialized, Except.toOption]
          rw [List.filterMap_cons_some present, List.filterMap_cons_some final, List.map_cons,
            List.mapM_cons, reads, except_ok_bind, ih]
          rfl

end

/-- Over any interleaving of the turns of any substreams with distinct ids, `finalize()` gets
exactly the final state of each substream that completed a turn with a state, in some order; or
one fresh initial state when there is none. -/
theorem finalize_receives_final_states (config : TableInOutConfig State)
    (survives : Survives config) (finalizes : config.hasFinalize = true) (executionId : Bytes)
    (substreamId : Substream → Bytes) (injective : Function.Injective substreamId)
    (initialState : Substream → Option State) (fresh : Option State)
    (frame : Substream → ExchangeFrame) (substreams : List Substream) (nodup : substreams.Nodup)
    (steps : List (ExecutionStep Substream State))
    (within : ∀ step ∈ steps, step.Within executionId substreams)
    (execution : Execution Substream State)
    (runs : (Execution.start config initialState frame).run config executionId substreamId
      initialState steps = execution) :
    (∀ substream, (execution.finalState substream).isSome ↔
      ∃ state, some state ∈ execution.completed substream) ∧
    ∃ received, finalizeStates config executionId fresh execution.db = .ok received ∧
      (substreams.filterMap execution.finalState = [] → received = [fresh]) ∧
      (substreams.filterMap execution.finalState ≠ [] →
        received.Perm ((substreams.filterMap execution.finalState).map some)) := by
  have consistent := consistent_run config executionId substreamId initialState substreams survives
    finalizes injective steps within _
    (consistent_start config executionId substreamId initialState substreams frame)
  rw [runs] at consistent
  refine ⟨fun substream => ⟨fun final => ?_, ?_⟩, ?_⟩
  · obtain ⟨state, final⟩ := Option.isSome_iff_exists.mp final
    exact ⟨state, List.mem_of_getLast? (Option.join_eq_some_iff.mp final)⟩
  · rintro ⟨state, member⟩
    obtain ⟨last, isLast⟩ := Option.isSome_iff_exists.mp
      (List.getLast?_isSome.mpr (List.ne_nil_of_mem member))
    have present := (consistent.completed substream last (List.mem_of_getLast? isLast)).trans
      (consistent.completed substream (some state) member).symm
    rw [Execution.finalState, isLast]
    cases last with
    | none => cases present
    | some held => rfl
  · have perm := (FunctionStorageSqlite.inKeyOrder_perm _).trans (perm_rows config executionId
      substreamId initialState substreams injective nodup execution consistent)
    have reads := (except_mapM_iff _ _ _).mp (mapM_rows config substreamId substreams survives execution)
    obtain ⟨states, related, same⟩ := List.perm_comp_forall₂ (perm.map Prod.snd) reads
    have collected := (except_mapM_iff _ _ _).mpr related
    have received : finalizeStates config executionId fresh execution.db =
        .ok (if states = [] then [fresh] else states.map some) := by
      simp only [finalizeStates, FunctionStorageSqlite.workerCollect, collected, except_ok_bind]
      cases states <;> rfl
    refine ⟨_, received, fun none => ?_, fun some => ?_⟩
    · rw [none] at same
      rw [if_pos same.eq_nil]
    · rw [if_neg fun empty => some (by rw [empty] at same; exact same.symm.eq_nil)]
      exact same.map _

/-! ## Samples -/

def countingConfig : TableInOutConfig UInt8 where
  name := text "count_batches"
  resumable := false
  hasFinalize := true
  serializeUserState := fun state => .ok [state]
  deserializeUserState := fun bytes => .ok (bytes.headD 0)

/-- The function counts its inputs, or throws before it sees one. -/
def countingTurn (fromToken throws : Bool) : SubstreamTurn UInt8 where
  fromToken := fromToken
  input := ⟨sampleBatch none, none⟩
  hooks :=
    { prepare := fun _ => if throws then some (text "process failed") else none
      process := fun _ _ => ⟨none, fun state => state + 1, some ⟨sampleBatch none, none⟩, none⟩
      resume := fun _ => ⟨none, id, none, none⟩ }
  frame := sampleFrame
  storageFails := false

/-- Two substreams: the first takes a turn in memory and one from its token, the second one. -/
def countingRun (steps : List (ExecutionStep Bool UInt8)) : Execution Bool UInt8 :=
  (Execution.start countingConfig (fun _ => some 0) fun _ => sampleFrame).run countingConfig [9]
    (fun substream => if substream then [1] else []) (fun _ => some 0) steps

theorem finalize_receives_final_states_sample :
    ∃ received, finalizeStates countingConfig [9] (some 0)
        (countingRun [.turn false (countingTurn false false), .turn true (countingTurn false false),
          .turn true (countingTurn false true), .turn false (countingTurn true false)]).db =
          .ok received ∧
      received.Perm [some 2, some 1] := by
  have survives : Survives countingConfig := fun state => ⟨[state], rfl, rfl⟩
  have injective : Function.Injective fun substream : Bool =>
      if substream then ([1] : Bytes) else [] := by decide
  obtain ⟨_, received, gets, _, states⟩ := finalize_receives_final_states countingConfig survives rfl
    [9] _ injective (fun _ => some 0) (some 0) (fun _ => sampleFrame) [false, true] (by decide)
    [.turn false (countingTurn false false), .turn true (countingTurn false false),
      .turn true (countingTurn false true), .turn false (countingTurn true false)]
    (by simp [ExecutionStep.Within]) _ rfl
  exact ⟨received, gets, states (by decide +kernel)⟩

/-- Its only turn throws: no substream has completed one, yet `finalize()` gets a state. -/
theorem finalize_without_states :
    (∀ substream, (countingRun [.turn false (countingTurn false true)]).completed substream = []) ∧
      finalizeStates countingConfig [9] (some 0)
          (countingRun [.turn false (countingTurn false true)]).db = .ok [some 0] :=
  ⟨by decide +kernel, by decide +kernel⟩

end VgiWorker.Functions
