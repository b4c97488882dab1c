import VgiWorker.Arrow.Types
import VgiWorker.Data.Result

/-!
# Continued output

One turn of a table-in-out exchange: which input it takes, which hook of the
function answers it, which reply is accepted, and what is persisted afterwards.
-/

set_option autoImplicit false

namespace VgiWorker.Functions

open VgiWorker.Js VgiWorker.Arrow

def statusKey : Text := text "vgi.status"

def haveMoreOutput : Text := text "HAVE_MORE_OUTPUT"

def continueStatus : Text := text "CONTINUE"

def cacheKeyPrefix : Text := text "vgi.cache."

/-- A data batch as it was emitted. -/
structure Emitted where
  batch : Batch
  metadata : Option Metadata

/-- The metadata a batch went out with: per-emit over batch-carried. -/
def Emitted.sent (reply : Emitted) : Metadata :=
  (reply.metadata.getD .empty).entries.foldl (fun sent entry => sent.set entry.1 entry.2)
    (reply.batch.metadata.getD .empty)

def Emitted.saysMore (reply : Emitted) : Bool :=
  reply.sent.get? statusKey = some haveMoreOutput

/-- The collector of a turn holds one data batch at most: it refuses a second. -/
abbrev Collected := Option Emitted

def refuseMoreOutput (name : Text) (out : Collected) : Except Text Unit :=
  if out.any Emitted.saysMore then
    .error (name ++ text ": HAVE_MORE_OUTPUT (moreOutputMetadata) is only valid in a " ++
      text "table-in-out function's process() or resume()")
  else .ok ()

/-- What arrives in a turn; vgi-rpc shows the metadata on the collector too. -/
structure TurnInput where
  batch : Batch
  inputMetadata : Option Metadata

def TurnInput.status (input : TurnInput) : Option Text :=
  (input.batch.metadata.bind fun metadata => metadata.get? statusKey).or
    (input.inputMetadata.bind fun metadata => metadata.get? statusKey)

def TurnInput.isTick (input : TurnInput) : Bool :=
  input.status = some continueStatus

inductive Hook where
  | process
  | resume
  deriving DecidableEq

/-- A run of user code in a turn: the hook it reached, what it did to the state object if there
is one, the collector as it left it, and what it threw. -/
structure HookRun (State : Type) where
  called : Option Hook
  update : State → State
  out : Collected
  thrown : Option Text

structure ExchangeState (State : Type) where
  state : Option State
  morePending : Bool

/-- An answered input. -/
structure Answered where
  tick : Bool
  numRows : Nat
  called : Option Hook
  reply : Emitted

/-- A turn leaves the exchange state as it mutated it, also when it throws. -/
structure TurnEffect (State : Type) where
  exchange : ExchangeState State
  result : Except Text Answered

section

variable {State : Type} (name : Text) (resumable : Bool)

/-- An input the protocol forbids now. -/
def checkInput (morePending : Bool) (input : TurnInput) : Except Text Unit :=
  if input.isTick ∧ ¬morePending then
    .error (name ++ text ": continuation tick received, but no output is pending")
  else if input.isTick ∧ input.batch.numRows ≠ 0 then
    .error (name ++ text ": a continuation tick must have no rows, got " ++
      Number.decimal input.batch.numRows)
  else if ¬input.isTick ∧ morePending then
    .error (name ++ text ": input received while output is pending; expected a continuation tick")
  else .ok ()

/-- A reply the protocol forbids, or the one the turn answers with. -/
def checkReply (tick : Bool) (out : Collected) : Except Text Emitted :=
  match out with
  | none =>
      .error (name ++
        if tick then text ": resume() must emit a batch for every continuation tick"
        else text ": process() must emit a batch for every input batch " ++
          text "(No data batch was emitted)")
  | some reply =>
      if reply.saysMore ∧ ¬resumable then
        .error (name ++ text ": emitted HAVE_MORE_OUTPUT but does not implement resume()")
      else
        match tick, reply.sent.keys.find? fun key => cacheKeyPrefix.isPrefixOf key with
        | true, some key =>
            .error (name ++ text ": cache control is only valid on an input's first reply, " ++
              text "not on one answering a continuation tick (" ++ key ++ text ")")
        | _, _ => .ok reply

def continuationTurn (exchange : ExchangeState State) (input : TurnInput)
    (run : Bool → HookRun State) : TurnEffect State :=
  match checkInput name exchange.morePending input with
  | .error message => ⟨exchange, .error message⟩
  | .ok () =>
      let ran := run input.isTick
      match ran.thrown with
      | some message => ⟨⟨exchange.state.map ran.update, exchange.morePending⟩, .error message⟩
      | none =>
          match checkReply name resumable input.isTick ran.out with
          | .error message => ⟨⟨exchange.state.map ran.update, exchange.morePending⟩, .error message⟩
          | .ok reply =>
              ⟨⟨exchange.state.map ran.update, reply.saysMore⟩,
                .ok ⟨input.isTick, input.batch.numRows, ran.called, reply⟩⟩

end

/-! ## The exchange of a table-in-out function -/

/-- The hooks of a function in one turn, which may answer anything. `prepare` is what runs before
them: the dynamic filter update. -/
structure TurnHooks (State : Type) where
  prepare : TurnInput → Option Text
  process : Option State → TurnInput → HookRun State
  resume : Option State → HookRun State

def TurnHooks.run {State : Type} (hooks : TurnHooks State) (state : Option State)
    (input : TurnInput) (tick : Bool) : HookRun State :=
  match hooks.prepare input with
  | some message => ⟨none, id, none, some message⟩
  | none =>
      if tick then { hooks.resume state with called := some .resume }
      else { hooks.process state input with called := some .process }

structure TableInOutConfig (State : Type) where
  name : Text
  resumable : Bool
  hasFinalize : Bool
  serializeUserState : State → Except Text Bytes
  deserializeUserState : Bytes → Except Text State

section

variable {State Store : Type} (config : TableInOutConfig State)
  (put : Store → Bytes → Except Text Store)

/-- The upsert after a turn; a function without `finalize` writes nothing. -/
def persistState (state : Option State) (store : Store) : Except Text Store :=
  match config.hasFinalize, state with
  | true, some state => do
      let bytes ← config.serializeUserState state
      put store bytes
  | _, _ => .ok store

/-- The exchange function: the turn, then its state for FINALIZE. -/
def exchangeFn (hooks : TurnHooks State) (exchange : ExchangeState State) (store : Store)
    (input : TurnInput) : TurnEffect State × Store :=
  let effect := continuationTurn config.name config.resumable exchange input
    (hooks.run exchange.state input)
  match effect.result with
  | .error _ => (effect, store)
  | .ok _ =>
      match persistState config put effect.exchange.state store with
      | .ok store => (effect, store)
      | .error message => (⟨effect.exchange, .error message⟩, store)

end

end VgiWorker.Functions
