import VgiWorker.Functions.Continuation
import VgiWorker.Protocol.StateFrame

/-!
# The continued-output protocol over a stream

A stream serves each turn from the exchange it holds in memory or from the state
token of its last accepted turn. Over any mix of both, ticks follow exactly the
replies that said more.
-/

set_option autoImplicit false

namespace VgiWorker.Functions

open VgiWorker.Js VgiWorker.Arrow VgiWorker.Protocol

variable {State Store : Type}

/-- A turn of a stream: how it is served, what it brings, and what the function and the storage
do in it. `frame` holds the parts of the state token that no rule reads. -/
structure StreamTurn (State Store : Type) where
  fromToken : Bool
  input : TurnInput
  hooks : TurnHooks State
  initialState : Option State
  put : Store → Bytes → Except Text Store
  frame : ExchangeFrame

structure Stream (State : Type) where
  memory : ExchangeState State
  /-- Minted after the last accepted turn, when its state serializes. -/
  token : Option Bytes

section

variable (config : TableInOutConfig State)

def mintToken (frame : ExchangeFrame) (exchange : ExchangeState State) : Except Text Bytes := do
  let userState ← exchange.state.mapM config.serializeUserState
  .ok { frame with userState := userState, morePending := exchange.morePending }.serialize

/-- The exchange that a continuation rebuilds; a state the token carries replaces the initial
one. -/
def restoreExchange (initialState : Option State) (token : Bytes) :
    Except Text (ExchangeState State) := do
  let frame ← ExchangeFrame.deserialize token
  let userState ← frame.userState.mapM config.deserializeUserState
  .ok ⟨userState.or initialState, frame.morePending⟩

def startStream (frame : ExchangeFrame) (initialState : Option State) : Stream State where
  memory := ⟨initialState, false⟩
  token := (mintToken config frame ⟨initialState, false⟩).toOption

/-- The exchange function of a turn, on the exchange it is served from. -/
def exchangeOf (turn : StreamTurn State Store) (exchange : ExchangeState State) (store : Store) :
    TurnEffect State × Store :=
  exchangeFn config turn.put turn.hooks exchange store turn.input

/-- What a turn leaves behind; a rebuilt exchange whose turn fails is dropped. -/
def serveTurn (stream : Stream State) (store : Store) (turn : StreamTurn State Store) :
    Stream State × Store × Except Text Answered :=
  if turn.fromToken then
    match stream.token with
    | none => (stream, store, .error (text "no state token"))
    | some token =>
        match restoreExchange config turn.initialState token with
        | .error message => (stream, store, .error message)
        | .ok exchange =>
            let (effect, store) := exchangeOf config turn exchange store
            match effect.result, mintToken config turn.frame effect.exchange with
            | .ok answered, .ok token => (⟨effect.exchange, some token⟩, store, .ok answered)
            | .error message, _ => (stream, store, .error message)
            | _, .error message => (stream, store, .error message)
  else
    let (effect, store) := exchangeOf config turn stream.memory store
    match effect.result with
    | .error message => ({ stream with memory := effect.exchange }, store, .error message)
    | .ok answered =>
        (⟨effect.exchange, (mintToken config turn.frame effect.exchange).toOption⟩, store,
          .ok answered)

/-- What the hooks of a turn do when it is served from an exchange. -/
def StreamTurn.ran (turn : StreamTurn State Store) (exchange : ExchangeState State) :
    HookRun State :=
  turn.hooks.run exchange.state turn.input turn.input.isTick

/-- A turn in memory whose reply is accepted and changes the flag has its state persisted. -/
def PersistsChange (stream : Stream State) (store : Store) (turn : StreamTurn State Store) : Prop :=
  turn.fromToken = false →
    checkInput config.name stream.memory.morePending turn.input = .ok () →
    (turn.ran stream.memory).thrown = none →
    ∀ reply,
      checkReply config.name config.resumable turn.input.isTick (turn.ran stream.memory).out =
          .ok reply →
        reply.saysMore = stream.memory.morePending ∨
          ∃ after, persistState config turn.put
            (stream.memory.state.map (turn.ran stream.memory).update) store = .ok after

/-- The streams reached from the init turn through turns that persist their changes, on whatever
the store holds at each, with the turns that were accepted. -/
inductive Reached (Store : Type) (frame : ExchangeFrame) (initialState : Option State) :
    Stream State → List Answered → Prop where
  | start : Reached Store frame initialState (startStream config frame initialState) []
  | accepted (stream next : Stream State) (store after : Store) (answers : List Answered)
      (turn : StreamTurn State Store) (answered : Answered)
      (reached : Reached Store frame initialState stream answers)
      (persists : PersistsChange config stream store turn)
      (serves : serveTurn config stream store turn = (next, after, .ok answered)) :
      Reached Store frame initialState next (answers ++ [answered])
  | threw (stream next : Stream State) (store after : Store) (answers : List Answered)
      (turn : StreamTurn State Store) (message : Text)
      (reached : Reached Store frame initialState stream answers)
      (persists : PersistsChange config stream store turn)
      (serves : serveTurn config stream store turn = (next, after, .error message)) :
      Reached Store frame initialState next answers

end

/-! ## The law -/

/-- Whether the last accepted reply said more. -/
def lastSaidMore (answers : List Answered) : Bool :=
  answers.getLast?.any fun answered => answered.reply.saysMore

/-- A word of inputs, each with its ticks: a turn is a tick exactly when the reply before it said
more. -/
def ContinuedWord (answers : List Answered) : Prop :=
  ∀ before answered after, answers = before ++ answered :: after →
    answered.tick = lastSaidMore before

/-- An accepted turn: the hook it reached, and what a tick and its reply look like. -/
structure Answered.Lawful (answered : Answered) : Prop where
  called : answered.called = some (if answered.tick then .resume else .process)
  rows : answered.tick = true → answered.numRows = 0
  uncached : answered.tick = true →
    ∀ key ∈ answered.reply.sent.keys, cacheKeyPrefix.isPrefixOf key = false

/-- The flag in memory and in the token says whether the last accepted reply said more. -/
structure Stream.Pending (stream : Stream State) (pending : Bool) : Prop where
  memory : stream.memory.morePending = pending
  token : ∀ token ∈ stream.token, ∀ frame, ExchangeFrame.deserialize token = .ok frame →
    frame.morePending = pending

/-! ## One turn -/

private theorem checkInput_ok (name : Text) (pending : Bool) (input : TurnInput)
    (taken : checkInput name pending input = .ok ()) :
    input.isTick = pending ∧ (input.isTick = true → input.batch.numRows = 0) := by
  unfold checkInput at taken
  cases tick : input.isTick <;> cases pending <;> simp_all

private theorem checkReply_ok (name : Text) (resumable tick : Bool) (out : Collected)
    (reply : Emitted) (accepted : checkReply name resumable tick out = .ok reply) :
    out = some reply ∧
      (tick = true → ∀ key ∈ reply.sent.keys, cacheKeyPrefix.isPrefixOf key = false) := by
  unfold checkReply at accepted
  cases out with
  | none => cases accepted
  | some held =>
      simp only at accepted
      split at accepted
      · cases accepted
      · split at accepted
        · cases accepted
        · rename_i noKey
          cases accepted
          refine ⟨rfl, fun isTick key member => ?_⟩
          cases found : reply.sent.keys.find? fun key => cacheKeyPrefix.isPrefixOf key with
          | some key => exact absurd found (noKey key isTick)
          | none => simpa only [Bool.not_eq_true] using List.find?_eq_none.mp found key member

/-- What the exchange of a turn can do: refuse, answer, or answer and fail to persist. -/
theorem exchangeOf_cases (config : TableInOutConfig State) (turn : StreamTurn State Store)
    (exchange : ExchangeState State) (store : Store) :
    (∃ message state, exchangeOf config turn exchange store =
        (⟨⟨state, exchange.morePending⟩, .error message⟩, store) ∧
        state.isSome = exchange.state.isSome) ∨
    ∃ reply,
      checkInput config.name exchange.morePending turn.input = .ok () ∧
      (turn.ran exchange).thrown = none ∧
      checkReply config.name config.resumable turn.input.isTick (turn.ran exchange).out =
        .ok reply ∧
      ((∃ after, persistState config turn.put (exchange.state.map (turn.ran exchange).update) store =
            .ok after ∧
          exchangeOf config turn exchange store =
            (⟨⟨exchange.state.map (turn.ran exchange).update, reply.saysMore⟩,
              .ok ⟨turn.input.isTick, turn.input.batch.numRows, (turn.ran exchange).called, reply⟩⟩,
              after)) ∨
        ∃ message,
          persistState config turn.put (exchange.state.map (turn.ran exchange).update) store =
            .error message ∧
          exchangeOf config turn exchange store =
            (⟨⟨exchange.state.map (turn.ran exchange).update, reply.saysMore⟩, .error message⟩,
              store)) := by
  unfold exchangeOf exchangeFn continuationTurn
  change _ ∨ ∃ reply, _ ∧ (turn.hooks.run _ _ _).thrown = none ∧ _
  cases taken : checkInput config.name exchange.morePending turn.input with
  | error message => exact Or.inl ⟨message, exchange.state, rfl, rfl⟩
  | ok done =>
      cases threw : (turn.hooks.run exchange.state turn.input turn.input.isTick).thrown with
      | some message =>
          left
          refine ⟨message, exchange.state.map (turn.ran exchange).update, ?_, by simp⟩
          simp [threw, StreamTurn.ran]
      | none =>
          cases replied : checkReply config.name config.resumable turn.input.isTick
              (turn.hooks.run exchange.state turn.input turn.input.isTick).out with
          | error message =>
              left
              refine ⟨message, exchange.state.map (turn.ran exchange).update, ?_, by simp⟩
              simp [threw, replied, StreamTurn.ran]
          | ok reply =>
              right
              refine ⟨reply, rfl, rfl, replied, ?_⟩
              cases persisted : persistState config turn.put
                  (exchange.state.map (turn.ran exchange).update) store with
              | ok after =>
                  left
                  refine ⟨after, rfl, ?_⟩
                  simp only [StreamTurn.ran] at persisted
                  simp [threw, replied, persisted, StreamTurn.ran]
              | error message =>
                  right
                  refine ⟨message, rfl, ?_⟩
                  simp only [StreamTurn.ran] at persisted
                  simp [threw, replied, persisted, StreamTurn.ran]

/-- An answered turn obeys the law, and leaves the flag that its reply asks for. -/
private theorem answered_spec (config : TableInOutConfig State) (turn : StreamTurn State Store)
    (exchange : ExchangeState State) (store : Store) (answered : Answered)
    (result : (exchangeOf config turn exchange store).1.result = .ok answered) :
    answered.Lawful ∧ answered.tick = exchange.morePending ∧
      (exchangeOf config turn exchange store).1.exchange.morePending = answered.reply.saysMore := by
  rcases exchangeOf_cases config turn exchange store with ⟨message, state, failed, _⟩ |
    ⟨reply, taken, unthrown, replied, ⟨after, _, answers⟩ | ⟨message, _, failed⟩⟩
  · rw [failed] at result
    cases result
  · rw [answers] at result ⊢
    cases result
    obtain ⟨tick, rows⟩ := checkInput_ok _ _ _ taken
    obtain ⟨_, uncached⟩ := checkReply_ok _ _ _ _ _ replied
    refine ⟨⟨?_, rows, uncached⟩, tick, rfl⟩
    simp only [StreamTurn.ran, TurnHooks.run] at unthrown ⊢
    cases prepared : turn.hooks.prepare turn.input with
    | some message =>
        rw [prepared] at unthrown
        cases unthrown
    | none => cases turn.input.isTick <;> rfl
  · rw [failed] at result
    cases result

/-- A turn in memory that throws keeps the flag, when it persists what it changes. -/
private theorem threw_keeps_flag (config : TableInOutConfig State) (stream : Stream State)
    (store : Store) (turn : StreamTurn State Store) (inMemory : turn.fromToken = false)
    (persists : PersistsChange config stream store turn) (message : Text)
    (result : (exchangeOf config turn stream.memory store).1.result = .error message) :
    (exchangeOf config turn stream.memory store).1.exchange.morePending =
      stream.memory.morePending := by
  rcases exchangeOf_cases config turn stream.memory store with ⟨fault, state, failed, _⟩ |
    ⟨reply, taken, unthrown, replied, ⟨after, _, answers⟩ | ⟨fault, unpersisted, failed⟩⟩
  · rw [failed]
  · rw [answers] at result
    cases result
  · rw [failed]
    rcases persists inMemory taken unthrown reply replied with same | ⟨after, persisted⟩
    · exact same
    · rw [unpersisted] at persisted
      cases persisted

private theorem morePending_of_mint (config : TableInOutConfig State) (frame : ExchangeFrame)
    (exchange : ExchangeState State) (token : Bytes)
    (minted : mintToken config frame exchange = .ok token) (restored : ExchangeFrame)
    (reads : ExchangeFrame.deserialize token = .ok restored) :
    restored.morePending = exchange.morePending := by
  obtain ⟨userState, _, minted⟩ := except_bind_ok _ _ _ minted
  cases minted
  exact (ExchangeFrame.flags_of_deserialize _ _ reads).1

private theorem pending_of_mint (config : TableInOutConfig State) (frame : ExchangeFrame)
    (exchange : ExchangeState State) (token : Option Bytes)
    (minted : ∀ held ∈ token, mintToken config frame exchange = .ok held) :
    Stream.Pending ⟨exchange, token⟩ exchange.morePending :=
  ⟨rfl, fun held member restored reads =>
    morePending_of_mint config frame exchange held (minted held member) restored reads⟩

theorem mem_toOption {Failure α : Type} (result : Except Failure α) (value : α)
    (member : value ∈ result.toOption) : result = .ok value := by
  cases result with
  | error failure => cases member
  | ok found => cases member; rfl

theorem store_of_error (config : TableInOutConfig State) (turn : StreamTurn State Store)
    (exchange : ExchangeState State) (store : Store) (message : Text)
    (result : (exchangeOf config turn exchange store).1.result = .error message) :
    (exchangeOf config turn exchange store).2 = store := by
  rcases exchangeOf_cases config turn exchange store with ⟨_, _, failed, _⟩ |
    ⟨_, _, _, _, ⟨_, _, answers⟩ | ⟨_, _, failed⟩⟩
  · rw [failed]
  · rw [answers] at result
    cases result
  · rw [failed]

/-- How a turn is served: from the token with a fresh exchange, or from memory. -/
theorem serveTurn_cases (config : TableInOutConfig State) (stream next : Stream State)
    (store after : Store) (turn : StreamTurn State Store) (result : Except Text Answered)
    (serves : serveTurn config stream store turn = (next, after, result)) :
    (next = stream ∧ (∃ message, result = .error message) ∧
      (after = store ∨ ∃ exchange message, mintToken config turn.frame exchange = .error message)) ∨
    (∃ token exchange answered minted, turn.fromToken = true ∧ stream.token = some token ∧
      restoreExchange config turn.initialState token = .ok exchange ∧
      (exchangeOf config turn exchange store).1.result = .ok answered ∧
      (exchangeOf config turn exchange store).2 = after ∧
      mintToken config turn.frame (exchangeOf config turn exchange store).1.exchange = .ok minted ∧
      next = ⟨(exchangeOf config turn exchange store).1.exchange, some minted⟩ ∧
      result = .ok answered) ∨
    (∃ message, turn.fromToken = false ∧
      (exchangeOf config turn stream.memory store).1.result = .error message ∧
      (exchangeOf config turn stream.memory store).2 = after ∧
      next = { stream with memory := (exchangeOf config turn stream.memory store).1.exchange } ∧
      result = .error message) ∨
    ∃ answered, turn.fromToken = false ∧
      (exchangeOf config turn stream.memory store).1.result = .ok answered ∧
      (exchangeOf config turn stream.memory store).2 = after ∧
      next = ⟨(exchangeOf config turn stream.memory store).1.exchange,
        (mintToken config turn.frame
          (exchangeOf config turn stream.memory store).1.exchange).toOption⟩ ∧
      result = .ok answered := by
  unfold serveTurn at serves
  split at serves
  · rename_i fromToken
    cases token : stream.token with
    | none =>
        rw [token] at serves
        cases serves
        exact Or.inl ⟨rfl, ⟨_, rfl⟩, Or.inl rfl⟩
    | some carried =>
        rw [token] at serves
        cases restored : restoreExchange config turn.initialState carried with
        | error message =>
            simp only [restored] at serves
            cases serves
            exact Or.inl ⟨rfl, ⟨_, rfl⟩, Or.inl rfl⟩
        | ok exchange =>
            simp only [restored] at serves
            split at serves
            · rename_i answered minted answers mints
              cases serves
              exact Or.inr (Or.inl ⟨carried, exchange, answered, minted, fromToken, rfl, restored,
                answers, rfl, mints, rfl, rfl⟩)
            · rename_i message answers
              cases serves
              exact Or.inl ⟨rfl, ⟨_, rfl⟩, Or.inl (store_of_error config turn exchange store message
                answers)⟩
            · rename_i message mints _
              cases serves
              exact Or.inl ⟨rfl, ⟨_, rfl⟩, Or.inr ⟨_, _, mints⟩⟩
  · rename_i notFromToken
    have inMemory : turn.fromToken = false := by simpa using notFromToken
    simp only at serves
    split at serves
    · rename_i message answers
      cases serves
      exact Or.inr (Or.inr (Or.inl ⟨message, inMemory, answers, rfl, rfl, rfl⟩))
    · rename_i answered answers
      cases serves
      exact Or.inr (Or.inr (Or.inr ⟨answered, inMemory, answers, rfl, rfl, rfl⟩))

/-- What one turn does to a stream whose flag is known. -/
private theorem serveTurn_spec (config : TableInOutConfig State) (stream next : Stream State)
    (store after : Store) (pending : Bool) (held : stream.Pending pending)
    (turn : StreamTurn State Store) (persists : PersistsChange config stream store turn)
    (result : Except Text Answered)
    (serves : serveTurn config stream store turn = (next, after, result)) :
    match result with
    | .error _ => next.Pending pending ∧ next.token = stream.token
    | .ok answered =>
        answered.Lawful ∧ answered.tick = pending ∧ next.Pending answered.reply.saysMore := by
  rcases serveTurn_cases config stream next store after turn result serves with
    ⟨rfl, ⟨message, rfl⟩, _⟩ |
    ⟨token, exchange, answered, minted, _, carried, restored, answers, _, mints, rfl, rfl⟩ |
    ⟨message, inMemory, answers, _, rfl, rfl⟩ | ⟨answered, inMemory, answers, _, rfl, rfl⟩
  · exact ⟨held, rfl⟩
  · have flag : exchange.morePending = pending := by
      obtain ⟨frame, reads, rest⟩ := except_bind_ok _ _ _ restored
      obtain ⟨_, _, rest⟩ := except_bind_ok _ _ _ rest
      cases rest
      exact held.token token carried frame reads
    obtain ⟨lawful, tick, more⟩ := answered_spec config turn exchange store answered answers
    refine ⟨lawful, tick.trans flag, ?_⟩
    rw [← more]
    exact pending_of_mint config turn.frame _ _ fun other member => by
      cases member
      exact mints
  · have kept := threw_keeps_flag config stream store turn inMemory persists message answers
    exact ⟨⟨kept.trans held.memory, held.token⟩, rfl⟩
  · obtain ⟨lawful, tick, more⟩ := answered_spec config turn stream.memory store answered answers
    refine ⟨lawful, tick.trans held.memory, ?_⟩
    rw [← more]
    exact pending_of_mint config turn.frame _ _ fun other member => mem_toOption _ _ member

/-! ## A whole stream -/

private theorem continuedWord_append (answers : List Answered) (answered : Answered)
    (word : ContinuedWord answers) (follows : answered.tick = lastSaidMore answers) :
    ContinuedWord (answers ++ [answered]) := by
  intro before found after split
  rcases List.eq_nil_or_concat after with rfl | ⟨others, last, rfl⟩
  · obtain ⟨same, here⟩ := List.append_inj' split rfl
    cases here
    rw [← same]
    exact follows
  · have shorter : answers ++ [answered] = (before ++ found :: others) ++ [last] := by
      simpa using split
    obtain ⟨same, _⟩ := List.append_inj' shorter rfl
    exact word before found others same

private theorem lastSaidMore_append (answers : List Answered) (answered : Answered) :
    lastSaidMore (answers ++ [answered]) = answered.reply.saysMore := by
  simp [lastSaidMore]

/-- Over any mix of turns in memory and from tokens that persist what they change, the accepted
turns are a word of inputs with their ticks, each lawful, and the flag stays with the last
accepted reply; a turn that throws keeps it. -/
theorem continued_output_law (config : TableInOutConfig State) (frame : ExchangeFrame)
    (initialState : Option State) (stream : Stream State) (answers : List Answered)
    (reached : Reached config Store frame initialState stream answers) :
    ContinuedWord answers ∧ (∀ answered ∈ answers, answered.Lawful) ∧
      stream.Pending (lastSaidMore answers) ∧
      ∀ (store after : Store) (turn : StreamTurn State Store) (next : Stream State)
        (message : Text),
        PersistsChange config stream store turn →
        serveTurn config stream store turn = (next, after, .error message) →
          next.memory.morePending = stream.memory.morePending ∧ next.token = stream.token := by
  have invariant : ContinuedWord answers ∧ (∀ answered ∈ answers, answered.Lawful) ∧
      stream.Pending (lastSaidMore answers) := by
    induction reached with
    | start =>
        refine ⟨?_, by simp, ?_⟩
        · intro before answered after split
          cases before <;> cases split
        · exact pending_of_mint config frame ⟨initialState, false⟩ _ fun held member =>
            mem_toOption _ _ member
    | accepted stream next store after answers turn answered _ persists serves ih =>
        obtain ⟨word, lawful, pending⟩ := ih
        obtain ⟨own, tick, leaves⟩ := serveTurn_spec config stream next store after _ pending turn
          persists _ serves
        refine ⟨continuedWord_append answers answered word tick, ?_, ?_⟩
        · intro other member
          rcases List.mem_append.mp member with before | here
          · exact lawful other before
          · rw [List.mem_singleton.mp here]
            exact own
        · rw [lastSaidMore_append]
          exact leaves
    | threw stream next store after answers turn message _ persists serves ih =>
        obtain ⟨word, lawful, pending⟩ := ih
        obtain ⟨leaves, _⟩ := serveTurn_spec config stream next store after _ pending turn persists
          _ serves
        exact ⟨word, lawful, leaves⟩
  obtain ⟨word, lawful, pending⟩ := invariant
  refine ⟨word, lawful, pending, ?_⟩
  intro store after turn next message persists serves
  obtain ⟨leaves, token⟩ := serveTurn_spec config stream next store after _ pending turn persists _
    serves
  exact ⟨leaves.memory.trans pending.memory.symm, token⟩

/-! ## Samples -/

def sampleConfig : TableInOutConfig Nat where
  name := text "explode"
  resumable := true
  hasFinalize := true
  serializeUserState := fun state => .ok [UInt8.ofNat state]
  deserializeUserState := fun bytes => .ok (bytes.headD 0).toNat

def sampleFrame : ExchangeFrame where
  functionName := []
  initRequestPacked := []
  executionId := []
  maxWorkers := 0
  opaqueData := none
  userState := none
  filterHistory := none
  isProducer := false
  morePending := false

def sampleBatch (metadata : Option Metadata) : Batch :=
  ⟨⟨[], .empty⟩, [], 0, metadata⟩

def statusMetadata (status : Text) : Metadata :=
  OrderedMap.empty.set statusKey status

/-- Every input has two replies. -/
def sampleHooks : TurnHooks Nat where
  prepare := fun _ => none
  process := fun _ _ =>
    ⟨none, fun _ => 1, some ⟨sampleBatch none, some (statusMetadata haveMoreOutput)⟩, none⟩
  resume := fun _ => ⟨none, fun _ => 2, some ⟨sampleBatch none, none⟩, none⟩

def sampleStreamTurn (fromToken : Bool) (status : Option Text) (put : Except Text Unit) :
    StreamTurn Nat Unit where
  fromToken := fromToken
  input := ⟨sampleBatch (status.map statusMetadata), none⟩
  hooks := sampleHooks
  initialState := some 0
  put := fun _ _ => put
  frame := sampleFrame

def sampleAnswer (tick : Bool) : Answered :=
  if tick then ⟨true, 0, some .resume, ⟨sampleBatch none, none⟩⟩
  else ⟨false, 0, some .process, ⟨sampleBatch none, some (statusMetadata haveMoreOutput)⟩⟩

/-- The stream after one turn of the sample. -/
def sampleNext (stream : Stream Nat) (turn : StreamTurn Nat Unit) : Stream Nat :=
  (serveTurn sampleConfig stream () turn).1

def sampleStart : Stream Nat :=
  startStream sampleConfig sampleFrame (some 0)

theorem continued_output_law_sample :
    ContinuedWord [sampleAnswer false, sampleAnswer true] := by
  have input : Reached sampleConfig Unit sampleFrame (some 0)
      (sampleNext sampleStart (sampleStreamTurn false none (.ok ()))) [sampleAnswer false] :=
    .accepted _ _ () () [] (sampleStreamTurn false none (.ok ())) (sampleAnswer false) .start
      (fun _ _ _ _ _ => Or.inr ⟨(), rfl⟩) rfl
  have tick : Reached sampleConfig Unit sampleFrame (some 0)
      (sampleNext (sampleNext sampleStart (sampleStreamTurn false none (.ok ())))
        (sampleStreamTurn true (some continueStatus) (.ok ())))
      [sampleAnswer false, sampleAnswer true] :=
    .accepted _ _ () () [sampleAnswer false]
      (sampleStreamTurn true (some continueStatus) (.ok ())) (sampleAnswer true) input nofun rfl
  exact (continued_output_law sampleConfig sampleFrame (some 0) _ _ tick).1

/-- The storage fails once, after a reply that says more: the turn throws, yet the flag has
changed, and a tick is the first turn that the stream accepts. -/
theorem thrown_turn_sets_flag : ∃ (next last : Stream Nat) (message : Text) (answered : Answered),
    serveTurn sampleConfig sampleStart ()
        (sampleStreamTurn false none (.error (text "disk I/O error"))) = (next, (), .error message) ∧
      sampleStart.memory.morePending = false ∧ next.memory.morePending = true ∧
      serveTurn sampleConfig next () (sampleStreamTurn false (some continueStatus) (.ok ())) =
        (last, (), .ok answered) ∧
      answered.tick = true :=
  ⟨sampleNext sampleStart (sampleStreamTurn false none (.error (text "disk I/O error"))),
    sampleNext (sampleNext sampleStart (sampleStreamTurn false none (.error (text "disk I/O error"))))
      (sampleStreamTurn false (some continueStatus) (.ok ())),
    text "disk I/O error", sampleAnswer true, rfl, rfl, rfl, rfl, rfl⟩

end VgiWorker.Functions
