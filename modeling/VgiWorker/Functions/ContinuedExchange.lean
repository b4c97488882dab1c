import VgiWorker.Arrow.RowReading
import VgiWorker.Functions.FilteringCollector

/-!
# The client of a continued output

The client asks for the replies of one input after the other, with a tick
wherever a reply says more, and the worker takes each request as a turn.
-/

set_option autoImplicit false

namespace VgiWorker.Functions

open VgiWorker.Js VgiWorker.Arrow

/-! ## The client -/

def cacheNotModifiedKey : Text := text "vgi.cache.not_modified"

/-- No other letter has one of "false" as its lower case. -/
def asciiLower (unit : CodeUnit) : CodeUnit :=
  if 65 ≤ unit ∧ unit ≤ 90 then unit + 32 else unit

def isNotModified (metadata : Metadata) : Bool :=
  match metadata.get? cacheNotModifiedKey with
  | none => false
  | some value => value ≠ text "0" && value.map asciiLower ≠ text "false"

/-- A row under its column names. -/
abbrev Row := List (Text × Rich)

/-- What goes out in one raw exchange. -/
structure ClientMessage where
  batch : Batch
  metadata : Metadata

structure Reply where
  batch : Batch
  metadata : Metadata

/-- The metadata the client reads: that of the message over that of the batch. -/
def Reply.read (reply : Reply) : Metadata :=
  reply.metadata.entries.foldl (fun read entry => read.set entry.1 entry.2)
    (reply.batch.metadata.getD .empty)

/-- `exchangeContinued` before an exchange: its input, and whether it asks for more of it. -/
structure Asking where
  input : Batch
  tick : Bool

def Asking.message (asking : Asking) : ClientMessage :=
  if asking.tick then
    ⟨emptyBatch asking.input.schema, OrderedMap.empty.set statusKey continueStatus⟩
  else ⟨asking.input, .empty⟩

/-- The rows of a reply, and whether to ask again. -/
def Asking.receive (dateText : Number → Text) (functionName : Text) (asking : Asking) (reply : Option Reply) :
    Except Text (List Row × Bool) :=
  match reply with
  | none =>
      if asking.tick then
        .error (text "tableInOutFunction(" ++ functionName ++
          text "): the worker ended the stream while output was pending")
      else .ok ([], false)
  | some reply =>
      let more := reply.read.get? statusKey = some haveMoreOutput
      if isNotModified reply.read ∧ (more ∨ asking.tick) then
        .error (text "tableInOutFunction(" ++ functionName ++
          text "): the worker answered not_modified on a continued reply (" ++
          (if asking.tick then text "answering a continuation tick"
            else text "one saying HAVE_MORE_OUTPUT") ++
          text "); not_modified must be an input's only reply")
      else do
        let rows ← (iterRows dateText reply.batch).mapError codecMessage
        .ok (rows, more)

/-! ## Client and worker -/

/-- How messages and replies travel, and what becomes of the exchange state between two turns. -/
structure Transport (State : Type) where
  deliver : ClientMessage → TurnInput
  answer : Emitted → Reply
  carry : ExchangeState State → ExchangeState State

def carriedStatus (batch : Batch) : Option Text :=
  batch.metadata.bind fun metadata => metadata.get? statusKey

/-- A message arrives with its rows and with the status it was sent with, a reply with its rows
and entries, and the state with its flag. -/
structure Transport.Lawful {State : Type} (dateText : Number → Text)
    (transport : Transport State) : Prop where
  delivered_rows : ∀ message, (transport.deliver message).batch.numRows = message.batch.numRows
  status_sent : ∀ message, (message.metadata.get? statusKey).isSome →
    message.batch.metadata = none →
    (transport.deliver message).status = message.metadata.get? statusKey
  status_carried : ∀ message, message.metadata.get? statusKey = none →
    (transport.deliver message).status = none ∨
      (transport.deliver message).status = carriedStatus message.batch
  entries : ∀ emitted key, (transport.answer emitted).read.get? key = emitted.sent.get? key
  rows : ∀ emitted, iterRows dateText (transport.answer emitted).batch =
    iterRows dateText emitted.batch
  pending : ∀ exchange, (transport.carry exchange).morePending = exchange.morePending

/-- One turn as it was: what the client asked for, whether the worker had output pending, and the
reply. -/
structure ExchangedTurn where
  asking : Asking
  pending : Bool
  reply : Emitted

structure Conversation (State : Type) where
  exchange : ExchangeState State
  /-- The input whose output is not at its end. -/
  asking : Option Asking
  inputs : List Batch
  turns : List ExchangedTurn
  yielded : List (List Row)

inductive Refusal where
  | worker (message : Text)
  | client (message : Text)
  deriving DecidableEq

section

variable {State : Type} (dateText : Number → Text) (name : Text) (resumable : Bool)
  (transport : Transport State)

/-- What the client sends next: a tick, or the next input when no input is in progress. -/
def Conversation.next? (conversation : Conversation State) : Option (Asking × List Batch) :=
  match conversation.asking, conversation.inputs with
  | some asking, inputs => some (asking, inputs)
  | none, input :: inputs => some (⟨input, false⟩, inputs)
  | none, [] => none

/-- One turn; `run` is what the user's code does in it. -/
def exchangeTurn (conversation : Conversation State) (run : Bool → HookRun State) :
    Except Refusal (Conversation State) :=
  match conversation.next? with
  | none => .ok conversation
  | some (asking, inputs) =>
      let exchange := transport.carry conversation.exchange
      let effect :=
        continuationTurn name resumable exchange (transport.deliver asking.message) run
      match effect.result with
      | .error message => .error (.worker message)
      | .ok answered =>
          match asking.receive dateText name (some (transport.answer answered.reply)) with
          | .error message => .error (.client message)
          | .ok (rows, more) =>
              .ok
                { exchange := effect.exchange
                  asking := if more then some ⟨asking.input, true⟩ else none
                  inputs := inputs
                  turns := conversation.turns ++ [⟨asking, exchange.morePending, answered.reply⟩]
                  yielded :=
                    if rows = [] then conversation.yielded else conversation.yielded ++ [rows] }

/-- The turns of a conversation until its inputs are used up. -/
def converse (conversation : Conversation State) :
    List (Bool → HookRun State) → Except Refusal (Conversation State)
  | [] => .ok conversation
  | run :: rest => do
      let conversation ← exchangeTurn dateText name resumable transport conversation run
      converse conversation rest

def openConversation (state : Option State) (inputs : List Batch) : Conversation State :=
  ⟨⟨state, false⟩, none, inputs, [], []⟩

end

/-! ## What the user's code has to keep -/

/-- A run that returns with one reply whose rows can be read, says more only where `resume` is
there, has no cache control for a tick, and no not-modified that says more. -/
structure RepliesWell {State : Type} (dateText : Number → Text) (resumable tick : Bool)
    (ran : HookRun State) (reply : Emitted) : Prop where
  returns : ran.thrown = none
  replies : ran.out = some reply
  readable : ∃ rows, iterRows dateText reply.batch = .ok rows
  resumes : reply.saysMore = true → resumable = true
  uncached : tick = true → ∀ key ∈ reply.sent.keys, cacheKeyPrefix.isPrefixOf key = false
  modified : reply.saysMore = true → isNotModified reply.sent = false

/-! ## One turn -/

/-- What holds between two turns. -/
structure InStep {State : Type} (dateText : Number → Text) (inputs : List Batch)
    (conversation : Conversation State) : Prop where
  asks : conversation.asking.isSome = conversation.exchange.morePending
  ticks : ∀ asking ∈ conversation.asking, asking.tick = true
  rows : ∃ replied : List (List Row),
    conversation.turns.mapM (fun turn => iterRows dateText turn.reply.batch) = .ok replied ∧
      conversation.yielded.flatten = replied.flatten
  turns : ∀ turn ∈ conversation.turns, turn.asking.tick = turn.pending
  sent : (conversation.turns.filter fun turn => !turn.asking.tick).map (fun turn =>
    turn.asking.input) ++ conversation.inputs = inputs

private theorem isNotModified_congr (left right : Metadata)
    (same : left.get? cacheNotModifiedKey = right.get? cacheNotModifiedKey) :
    isNotModified left = isNotModified right := by
  rw [isNotModified, isNotModified, same]

private theorem isNotModified_uncached (sent : Metadata)
    (uncached : ∀ key ∈ sent.keys, cacheKeyPrefix.isPrefixOf key = false) :
    isNotModified sent = false := by
  cases held : sent.get? cacheNotModifiedKey with
  | none => rw [isNotModified, held]
  | some value =>
      have member : cacheNotModifiedKey ∈ sent.keys :=
        (sent.mem_keys_iff cacheNotModifiedKey).mpr (by rw [held]; rfl)
      have cached : cacheKeyPrefix.isPrefixOf cacheNotModifiedKey = true := by decide
      rw [uncached _ member] at cached
      cases cached

section

variable {State : Type} (dateText : Number → Text) (name : Text) (resumable : Bool)
  (transport : Transport State)

/-- The worker takes a turn that it expects, whatever the run then replies. -/
private theorem continuationTurn_replies (exchange : ExchangeState State) (input : TurnInput)
    (run : Bool → HookRun State) (reply : Emitted)
    (expected : input.isTick = exchange.morePending)
    (empty : input.isTick = true → input.batch.numRows = 0)
    (well : RepliesWell dateText resumable input.isTick (run input.isTick) reply) :
    (continuationTurn name resumable exchange input run).result =
        .ok ⟨input.isTick, input.batch.numRows, (run input.isTick).called, reply⟩ ∧
      (continuationTurn name resumable exchange input run).exchange.morePending =
        reply.saysMore := by
  have taken : checkInput name exchange.morePending input = .ok () := by
    unfold checkInput
    rw [← expected]
    cases tick : input.isTick with
    | false => simp
    | true => simp [empty tick]
  have accepted : checkReply name resumable input.isTick (run input.isTick).out = .ok reply := by
    have resumes : ¬(reply.saysMore = true ∧ ¬resumable = true) :=
      fun more => more.2 (well.resumes more.1)
    unfold checkReply
    rw [well.replies]
    simp only [if_neg resumes]
    split
    · next key tick found =>
        have cached := List.find?_some found
        rw [well.uncached tick key (List.mem_of_find?_eq_some found)] at cached
        cases cached
    · rfl
  unfold continuationTurn
  rw [taken]
  simp only [well.returns, accepted]
  exact ⟨trivial, trivial⟩

/-- The client takes the reply of a run that keeps the rules. -/
private theorem receive_reply (lawful : transport.Lawful dateText) (asking : Asking)
    (reply : Emitted) (ran : HookRun State)
    (well : RepliesWell dateText resumable asking.tick ran reply) :
    ∃ rows, iterRows dateText reply.batch = .ok rows ∧
      asking.receive dateText name (some (transport.answer reply)) =
        .ok (rows, reply.saysMore) := by
  have more : (transport.answer reply).read.get? statusKey = reply.sent.get? statusKey :=
    lawful.entries reply statusKey
  have modified : isNotModified (transport.answer reply).read = isNotModified reply.sent :=
    isNotModified_congr _ _ (lawful.entries reply cacheNotModifiedKey)
  have allowed : ¬(isNotModified (transport.answer reply).read = true ∧
      (reply.sent.get? statusKey = some haveMoreOutput ∨ asking.tick = true)) := by
    rw [modified]
    rintro ⟨notModified, moreToCome | tick⟩
    · rw [well.modified (by rw [Emitted.saysMore, moreToCome]; rfl)] at notModified
      cases notModified
    · rw [isNotModified_uncached reply.sent (well.uncached tick)] at notModified
      cases notModified
  obtain ⟨rows, read⟩ := well.readable
  refine ⟨rows, read, ?_⟩
  unfold Asking.receive
  simp only [more, if_neg allowed, lawful.rows, (except_mapError_ok codecMessage _ rows).mpr read,
    except_ok_bind]
  rfl

/-- The message of a client in step is a turn that the worker expects. -/
private theorem message_expected (lawful : transport.Lawful dateText) (asking : Asking)
    (plain : asking.tick = false → carriedStatus asking.input ≠ some continueStatus) :
    (transport.deliver asking.message).isTick = asking.tick ∧
      ((transport.deliver asking.message).isTick = true →
        (transport.deliver asking.message).batch.numRows = 0) := by
  cases tick : asking.tick with
  | true =>
      have message : asking.message =
          ⟨emptyBatch asking.input.schema, OrderedMap.empty.set statusKey continueStatus⟩ :=
        if_pos tick
      have status := lawful.status_sent asking.message (by rw [message]; rfl) (by rw [message]; rfl)
      have isTick : (transport.deliver asking.message).isTick = true := by
        rw [TurnInput.isTick, status, message]
        rfl
      exact ⟨isTick, fun _ => by rw [lawful.delivered_rows, message]; rfl⟩
  | false =>
      have message : asking.message = ⟨asking.input, .empty⟩ := if_neg (by simp [tick])
      have notTick : (transport.deliver asking.message).isTick = false := by
        rw [TurnInput.isTick, decide_eq_false_iff_not]
        rcases lawful.status_carried asking.message (by rw [message]; rfl) with none | carried
        · rw [none]
          nofun
        · rw [carried, message]
          exact plain tick
      exact ⟨notTick, fun isTick => by rw [notTick] at isTick; cases isTick⟩

private theorem exchangeTurn_step (lawful : transport.Lawful dateText) (inputs : List Batch)
    (plain : ∀ input ∈ inputs, carriedStatus input ≠ some continueStatus)
    (conversation : Conversation State) (inStep : InStep dateText inputs conversation)
    (run : Bool → HookRun State)
    (well : ∀ tick, ∃ reply, RepliesWell dateText resumable tick (run tick) reply) :
    ∃ next, exchangeTurn dateText name resumable transport conversation run = .ok next ∧
      InStep dateText inputs next := by
  cases going : conversation.next? with
  | none => exact ⟨conversation, by rw [exchangeTurn, going], inStep⟩
  | some entry =>
      obtain ⟨asking, rest⟩ := entry
      -- The client asks with a tick exactly when the worker has output pending.
      have shape : asking.tick = conversation.exchange.morePending ∧
          (asking.tick = false → asking.input ∈ inputs) ∧
          (if asking.tick then rest else asking.input :: rest) = conversation.inputs := by
        unfold Conversation.next? at going
        have asks := inStep.asks
        cases held : conversation.asking with
        | some current =>
            rw [held] at going asks
            cases going
            have tick := inStep.ticks asking held
            refine ⟨tick.trans asks, fun real => ?_, by rw [tick]; rfl⟩
            rw [tick] at real
            cases real
        | none =>
            rw [held] at going asks
            cases remaining : conversation.inputs with
            | nil =>
                rw [remaining] at going
                cases going
            | cons input others =>
                rw [remaining] at going
                cases going
                refine ⟨asks, fun _ => ?_, rfl⟩
                rw [← inStep.sent, remaining]
                exact List.mem_append_right _ List.mem_cons_self
      obtain ⟨ticks, fresh, split⟩ := shape
      obtain ⟨isTick, empty⟩ := message_expected dateText transport lawful asking
        fun real => plain asking.input (fresh real)
      obtain ⟨reply, replies⟩ := well asking.tick
      obtain ⟨answered, pending⟩ := continuationTurn_replies dateText name resumable
        (transport.carry conversation.exchange) (transport.deliver asking.message) run reply
        (by rw [isTick, ticks, lawful.pending]) empty (by rw [isTick]; exact replies)
      obtain ⟨rows, read, received⟩ := receive_reply dateText name resumable transport lawful asking
        reply _ replies
      refine ⟨_, by rw [exchangeTurn, going]; simp only [answered, received]; rfl, ?_⟩
      refine ⟨?_, ?_, ?_, ?_, ?_⟩
      · dsimp only
        rw [pending]
        cases reply.saysMore <;> rfl
      · intro next member
        dsimp only at member
        split at member
        · cases member
          rfl
        · cases member
      · dsimp only
        obtain ⟨replied, each, flat⟩ := inStep.rows
        refine ⟨replied ++ [rows], ?_, ?_⟩
        · rw [List.mapM_append, each, except_ok_bind, List.mapM_cons, read]
          rfl
        · rw [List.flatten_append, List.flatten_cons, List.flatten_nil, List.append_nil, ← flat]
          split
          · next none => rw [none, List.append_nil]
          · rw [List.flatten_append, List.flatten_cons, List.flatten_nil, List.append_nil]
      · intro turn member
        rcases List.mem_append.mp member with before | here
        · exact inStep.turns turn before
        · rw [List.mem_singleton.mp here]
          exact ticks.trans (lawful.pending _).symm
      · dsimp only
        rw [← inStep.sent, ← split, List.filter_append, List.map_append, List.append_assoc]
        cases tick : asking.tick with
        | true => simp [tick]
        | false => simp [tick]

/-- With user code that keeps the rules the worker takes every turn and the client every reply;
the rows come out as they were replied, and the client ticks exactly while output is pending. -/
theorem continued_exchange_agrees (lawful : transport.Lawful dateText) (state : Option State)
    (inputs : List Batch) (plain : ∀ input ∈ inputs, carriedStatus input ≠ some continueStatus)
    (runs : List (Bool → HookRun State))
    (well : ∀ run ∈ runs, ∀ tick, ∃ reply, RepliesWell dateText resumable tick (run tick) reply) :
    ∃ conversation,
      converse dateText name resumable transport (openConversation state inputs) runs = .ok conversation ∧
      InStep dateText inputs conversation := by
  have goesOn : ∀ start : Conversation State, InStep dateText inputs start →
      ∃ conversation, converse dateText name resumable transport start runs = .ok conversation ∧
        InStep dateText inputs conversation := by
    induction runs with
    | nil => exact fun start inStep => ⟨start, rfl, inStep⟩
    | cons run rest ih =>
        intro start inStep
        obtain ⟨next, stepped, inStepNext⟩ := exchangeTurn_step dateText name resumable transport lawful
          inputs plain start inStep run (well run List.mem_cons_self)
        obtain ⟨last, others, inStepLast⟩ :=
          ih (fun other member => well other (List.mem_cons_of_mem _ member)) next inStepNext
        refine ⟨last, ?_, inStepLast⟩
        rw [converse, stepped, except_ok_bind, others]
  exact goesOn _ ⟨rfl, nofun, ⟨[], rfl, rfl⟩, nofun, rfl⟩

end

/-! ## A pipe -/

/-- The message arrives as it was sent, with its metadata beside the batch. -/
def pipe : Transport Unit where
  deliver := fun message => ⟨message.batch, some message.metadata⟩
  answer := fun emitted => ⟨emitted.batch, emitted.metadata.getD .empty⟩
  carry := id

private theorem pipe_lawful (dateText : Number → Text) : pipe.Lawful dateText where
  delivered_rows := fun _ => rfl
  status_sent := fun message _ bare => by
    rw [TurnInput.status]
    simp only [pipe, bare]
    rfl
  status_carried := fun message unsent => by
    refine Or.inr ?_
    rw [TurnInput.status, carriedStatus]
    simp only [pipe, Option.bind_some, unsent, Option.or_none]
  entries := fun _ _ => rfl
  rows := fun _ => rfl
  pending := fun _ => rfl

/-- A batch of one row in a column without values. -/
def pageBatch (metadata : Option Metadata) : Batch :=
  ⟨⟨[⟨text "i", .null, true, .empty⟩], .empty⟩, [[.null]], 1, metadata⟩

/-- An input has one more page, whose reply carries `last`. -/
def pagedRun (last : Option Metadata) (tick : Bool) : HookRun Unit :=
  if tick then ⟨some .resume, id, some ⟨pageBatch none, last⟩, none⟩
  else
    ⟨some .process, id,
      some ⟨pageBatch none, some (OrderedMap.empty.set statusKey haveMoreOutput)⟩, none⟩

/-- A date one millisecond past the last that a `Date` holds. -/
def lateBatch : Batch :=
  ⟨⟨[⟨text "d", .date .millisecond, true, .empty⟩], .empty⟩, [[.bigint 8640000000000001]], 1, none⟩

/-- The worker refuses the turn where the reply of a tick has a time to live, the function has no
`resume`, or the input carries a status of its own; the client refuses the reply where it cannot
read a date. -/
theorem turns_refused :
    converse (fun _ => []) (text "f") true pipe (openConversation none [pageBatch none])
        [pagedRun none,
          pagedRun (some (OrderedMap.empty.set (text "vgi.cache.ttl") (text "60")))] =
      .error (.worker (text "f" ++ (text ": cache control is only valid on an input's first " ++
        text "reply, not on one answering a continuation tick (vgi.cache.ttl)"))) ∧
    converse (fun _ => []) (text "f") false pipe (openConversation none [pageBatch none])
        [pagedRun none] =
      .error (.worker (text "f" ++
        text ": emitted HAVE_MORE_OUTPUT but does not implement resume()")) ∧
    converse (fun _ => []) (text "f") true pipe
        (openConversation none [pageBatch (some (OrderedMap.empty.set statusKey continueStatus))])
        [pagedRun none] =
      .error (.worker (text "f" ++
        text ": continuation tick received, but no output is pending")) ∧
    converse (fun _ => []) (text "f") true pipe (openConversation none [pageBatch none])
        [fun _ => ⟨some .process, id, some ⟨lateBatch, none⟩, none⟩] =
      .error (.client (text "codec[date64]: value produces an invalid Date")) :=
  ⟨rfl, rfl, rfl, rfl⟩

theorem continued_exchange_agrees_sample : ∃ conversation,
    converse (fun _ => []) (text "f") true pipe (openConversation none [pageBatch none])
        [pagedRun none, pagedRun none] = .ok conversation ∧
      InStep (fun _ => []) [pageBatch none] conversation := by
  refine continued_exchange_agrees (fun _ => []) (text "f") true pipe (pipe_lawful _) none
    [pageBatch none] ?_
    [pagedRun none, pagedRun none] ?_
  · intro input member
    rw [List.mem_singleton.mp member]
    decide
  · intro run member tick
    have same : run = pagedRun none := by simpa using member
    rw [same]
    cases tick with
    | true =>
        exact ⟨⟨pageBatch none, none⟩, rfl, rfl, ⟨_, rfl⟩, nofun, fun _ => by decide, nofun⟩
    | false => exact ⟨_, rfl, rfl, ⟨_, rfl⟩, fun _ => rfl, nofun, fun _ => by decide⟩

end VgiWorker.Functions
