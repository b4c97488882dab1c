import VgiWorker.FilterPushdown.History
import VgiWorker.Functions.Continuation
import VgiWorker.Js.Base64
import VgiWorker.Protocol.StateFrame

/-!
# Ticks of a table producer

A plain table function answers ticks that carry metadata: cache validators and
dynamic filter deltas. Its stream stays in memory, or is rebuilt from the state
token before every tick.
-/

set_option autoImplicit false

namespace VgiWorker.Functions

open VgiWorker.Js VgiWorker.Arrow VgiWorker.FilterPushdown VgiWorker.Protocol

def cacheIfNoneMatchKey : Text := text "vgi.cache.if_none_match"

def cacheIfModifiedSinceKey : Text := text "vgi.cache.if_modified_since"

def pushdownFiltersKey : Text := text "vgi_pushdown_filters"

def maxEncodedDeltaBytes : Nat := 24 * 2 ^ 20

def decodeDynamicFilterMetadata (encoded : Text) : Except Fault Bytes :=
  if maxEncodedDeltaBytes < utf8Length encoded then
    .error (.error (text "base64 dynamic filter metadata exceeds the encoded-size limit"))
  else if encoded.length % 4 ≠ 0 ∨
      ¬(dropPadding encoded).all fun unit => (standardSextetOf? unit).isSome then
    .error (.error (text "dynamic filter metadata is not valid base64"))
  else
    match b64ToBytes? encoded with
    | none => .error (.error (text "dynamic filter metadata is not valid base64"))
    | some bytes =>
        if maxDeltaIpcBytes < bytes.length then
          .error (.error (text "dynamic filter IPC payload exceeds the encoded-size limit"))
        else .ok bytes

/-- The process parameters that change from tick to tick. -/
structure ProcessParams where
  pushdownFilters : Option PushdownFilters
  ifNoneMatch : Option Text
  ifModifiedSince : Option Text

structure TableHandlerState (State : Type) where
  state : Option State
  processParams : ProcessParams
  filterHistory : FilterDeltaHistory

/-- A call of `process`: what it did to the state object if there is one, what it emitted, whether
it finished the stream, and what it threw. -/
structure ProcessRun (State : Type) where
  update : State → State
  out : Collected
  finished : Bool
  thrown : Option Text

structure TableFunctionConfig (State : Type) where
  name : Text
  initialState : ProcessParams → Option State
  process : ProcessParams → Option State → ProcessRun State
  serializeUserState : State → Except Text Bytes
  deserializeUserState : Bytes → Except Text State

/-- The parts of the init request that the handlers of a producer read. -/
structure ProducerRequest where
  pushdownFilters : Option Batch
  filterOptions : DeserializeFilterOptions
  phase : Option Text

section

variable {State : Type} (deserializeBatch : DeserializeBatch) (config : TableFunctionConfig State)

/-- `createStreamHandlers` and the `producerInit` of what it returns. -/
def createProducer (request : ProducerRequest) (filterHistory : Option FilterDeltaHistory) :
    Except Fault (TableHandlerState State) := do
  let carriedFilterHistory := filterHistory.getD emptyFilterHistory
  let snapshot ← request.pushdownFilters.mapM fun batch =>
    deserializeFilters batch request.filterOptions
  let pushdownFilters ←
    replayFilterHistory deserializeBatch snapshot (some carriedFilterHistory)
  let processParams : ProcessParams := ⟨pushdownFilters, none, none⟩
  match request.phase with
  | some _ =>
      .error (.error (config.name ++ text ": is a plain table function (it takes no input row " ++
        text "stream) but was called with an init phase set -- call it via " ++
        text "table_function(), not table_in_out_function()."))
  | none => .ok ⟨config.initialState processParams, processParams, carriedFilterHistory⟩

def onTick (pState : TableHandlerState State) (tickMetadata : Option Metadata) :
    Except Fault (TableHandlerState State) :=
  match tickMetadata with
  | none => .ok pState
  | some metadata =>
      -- A validator that is absent leaves the one of an earlier tick in place.
      let processParams : ProcessParams :=
        { pState.processParams with
          ifNoneMatch :=
            (metadata.get? cacheIfNoneMatchKey).or pState.processParams.ifNoneMatch
          ifModifiedSince :=
            (metadata.get? cacheIfModifiedSinceKey).or pState.processParams.ifModifiedSince }
      match metadata.get? pushdownFiltersKey with
      | none | some [] => .ok { pState with processParams }
      | some encoded =>
          match processParams.pushdownFilters with
          | none =>
              .error (.error (text "dynamic filter delta received without an initial snapshot"))
          | some current => do
              let deltaBytes ← decodeDynamicFilterMetadata encoded
              let recorded ←
                recordFilterDelta deserializeBatch current pState.filterHistory deltaBytes
              .ok
                { pState with
                  processParams := { processParams with pushdownFilters := some recorded.filters }
                  filterHistory := recorded.history }

/-! ## Serving ticks -/

structure Validators where
  ifNoneMatch : Option Text
  ifModifiedSince : Option Text
  deriving DecidableEq

def ProcessParams.validators (params : ProcessParams) : Validators :=
  ⟨params.ifNoneMatch, params.ifModifiedSince⟩

/-- A tick that got to `process`: what it saw there, and the handler state the stream goes on
with unless it finished or threw. -/
structure ServedTick (State : Type) where
  observed : Validators
  next : Option (TableHandlerState State)

def serveTick (pState : TableHandlerState State) (tickMetadata : Option Metadata) :
    Except Fault (ServedTick State) := do
  let ticked ← onTick deserializeBatch pState tickMetadata
  let ran := config.process ticked.processParams ticked.state
  let goesOn := ran.thrown = none ∧ ran.finished = false ∧
    (refuseMoreOutput config.name ran.out).isOk
  .ok
    { observed := ticked.processParams.validators
      next := if goesOn then some { ticked with state := ticked.state.map ran.update } else none }

/-- What `process` sees on the ticks of a stream that stays in memory. -/
def observedInMemory (pState : TableHandlerState State) : List (Option Metadata) → List Validators
  | [] => []
  | tickMetadata :: rest =>
      match serveTick deserializeBatch config pState tickMetadata with
      | .error _ => []
      | .ok served =>
          served.observed ::
            match served.next with
            | none => []
            | some pState => observedInMemory pState rest

/-- The state token of a producer; the other parts of the frame stay as they are. -/
def mintProducerToken (frame : ExchangeFrame) (pState : TableHandlerState State) :
    Except Text Bytes := do
  let userState ← pState.state.mapM config.serializeUserState
  .ok
    { frame with
      userState := userState
      filterHistory := encodeFilterHistory (some pState.filterHistory)
      isProducer := true }.serialize

/-- The handler state that a continuation rebuilds; a state the token carries replaces the initial
one. -/
def restoreProducer (request : ProducerRequest) (token : Bytes) :
    Except Fault (TableHandlerState State) := do
  let frame ← (ExchangeFrame.deserialize token).mapError .error
  let userState ← (frame.userState.mapM config.deserializeUserState).mapError .error
  let filterHistory ← decodeFilterHistory frame.filterHistory
  let pState ← createProducer deserializeBatch config request (some filterHistory)
  .ok { pState with state := userState.or pState.state }

/-- What `process` sees on the ticks of a stream that is rebuilt from its token before each. -/
def observedRebuilt (request : ProducerRequest) (frame : ExchangeFrame) (token : Bytes) :
    List (Option Metadata) → List Validators
  | [] => []
  | tickMetadata :: rest =>
      match restoreProducer deserializeBatch config request token with
      | .error _ => []
      | .ok pState =>
          match serveTick deserializeBatch config pState tickMetadata with
          | .error _ => []
          | .ok served =>
              served.observed ::
                match served.next.map (mintProducerToken config frame) with
                | some (.ok token) => observedRebuilt request frame token rest
                | _ => []

/-! ## The validators of a tick -/

def carried (key : Text) (tickMetadata : Option Metadata) : Option Text :=
  tickMetadata.bind fun metadata => metadata.get? key

/-- What a stream holds after a tick. -/
def Validators.after (held : Validators) (tickMetadata : Option Metadata) : Validators where
  ifNoneMatch := (carried cacheIfNoneMatchKey tickMetadata).or held.ifNoneMatch
  ifModifiedSince := (carried cacheIfModifiedSinceKey tickMetadata).or held.ifModifiedSince

theorem onTick_validators (pState ticked : TableHandlerState State)
    (tickMetadata : Option Metadata)
    (success : onTick deserializeBatch pState tickMetadata = .ok ticked) :
    ticked.processParams.validators = pState.processParams.validators.after tickMetadata := by
  cases tickMetadata with
  | none =>
      cases success
      rfl
  | some metadata =>
      simp only [onTick] at success
      split at success
      · cases success
        rfl
      · cases success
        rfl
      · split at success
        · cases success
        · obtain ⟨deltaBytes, _, recording⟩ := except_bind_ok _ _ _ success
          obtain ⟨recorded, _, done⟩ := except_bind_ok _ _ _ recording
          cases done
          rfl

theorem serveTick_spec (pState : TableHandlerState State) (tickMetadata : Option Metadata)
    (served : ServedTick State)
    (success : serveTick deserializeBatch config pState tickMetadata = .ok served) :
    served.observed = pState.processParams.validators.after tickMetadata ∧
      ∀ next ∈ served.next, next.processParams.validators = served.observed := by
  obtain ⟨ticked, onTicked, done⟩ := except_bind_ok _ _ _ success
  cases done
  refine ⟨onTick_validators deserializeBatch pState ticked tickMetadata onTicked, ?_⟩
  intro next member
  simp only [Option.mem_def] at member
  split at member
  · cases member
    rfl
  · cases member

theorem createProducer_validators (request : ProducerRequest)
    (filterHistory : Option FilterDeltaHistory) (pState : TableHandlerState State)
    (success : createProducer deserializeBatch config request filterHistory = .ok pState) :
    pState.processParams.validators = ⟨none, none⟩ := by
  obtain ⟨snapshot, _, replaying⟩ := except_bind_ok _ _ _ success
  obtain ⟨pushdownFilters, _, guarded⟩ := except_bind_ok _ _ _ replaying
  cases phase : request.phase with
  | some held =>
      simp only [phase] at guarded
      cases guarded
  | none =>
      simp only [phase] at guarded
      cases guarded
      rfl

theorem restoreProducer_validators (request : ProducerRequest) (token : Bytes)
    (pState : TableHandlerState State)
    (success : restoreProducer deserializeBatch config request token = .ok pState) :
    pState.processParams.validators = ⟨none, none⟩ := by
  obtain ⟨frame, _, reading⟩ := except_bind_ok _ _ _ success
  obtain ⟨userState, _, decoding⟩ := except_bind_ok _ _ _ reading
  obtain ⟨filterHistory, _, creating⟩ := except_bind_ok _ _ _ decoding
  obtain ⟨created, creates, done⟩ := except_bind_ok _ _ _ creating
  cases done
  exact createProducer_validators deserializeBatch config request _ created creates

/-- In memory a tick sees every validator that the stream has been sent so far. -/
theorem observedInMemory_get (pState : TableHandlerState State)
    (ticks : List (Option Metadata)) (index : Nat) (seen : Validators)
    (reached : (observedInMemory deserializeBatch config pState ticks)[index]? = some seen) :
    seen = (ticks.take (index + 1)).foldl Validators.after pState.processParams.validators := by
  induction ticks generalizing pState index with
  | nil => cases reached
  | cons tickMetadata rest ih =>
      cases serves : serveTick deserializeBatch config pState tickMetadata with
      | error fault =>
          simp only [observedInMemory, serves] at reached
          cases reached
      | ok served =>
          obtain ⟨observed, leaves⟩ :=
            serveTick_spec deserializeBatch config pState tickMetadata served serves
          simp only [observedInMemory, serves] at reached
          cases index with
          | zero =>
              cases reached
              exact observed
          | succ index =>
              rw [List.getElem?_cons_succ] at reached
              cases goesOn : served.next with
              | none =>
                  simp only [goesOn] at reached
                  cases reached
              | some next =>
                  simp only [goesOn] at reached
                  have later := ih next index reached
                  rw [leaves next goesOn, observed] at later
                  exact later

/-- A rebuilt stream shows the validators of the tick alone. -/
theorem observedRebuilt_get (request : ProducerRequest) (frame : ExchangeFrame) (token : Bytes)
    (ticks : List (Option Metadata)) (index : Nat) (seen : Validators)
    (reached : (observedRebuilt deserializeBatch config request frame token ticks)[index]? =
      some seen) :
    ∃ tickMetadata, ticks[index]? = some tickMetadata ∧
      seen = Validators.after ⟨none, none⟩ tickMetadata := by
  induction ticks generalizing token index with
  | nil => cases reached
  | cons tickMetadata rest ih =>
      cases restores : restoreProducer deserializeBatch config request token with
      | error fault =>
          simp only [observedRebuilt, restores] at reached
          cases reached
      | ok pState =>
          cases serves : serveTick deserializeBatch config pState tickMetadata with
          | error fault =>
              simp only [observedRebuilt, restores, serves] at reached
              cases reached
          | ok served =>
              obtain ⟨observed, _⟩ :=
                serveTick_spec deserializeBatch config pState tickMetadata served serves
              rw [restoreProducer_validators deserializeBatch config request token pState restores]
                at observed
              simp only [observedRebuilt, restores, serves] at reached
              cases index with
              | zero =>
                  cases reached
                  exact ⟨tickMetadata, rfl, observed⟩
              | succ index =>
                  rw [List.getElem?_cons_succ] at reached
                  split at reached
                  · exact ih _ index reached
                  · cases reached

/-! ## Sticky validators -/

/-- The last text that a key carries over the ticks. -/
def latest (key : Text) (held : Option Text) (ticks : List (Option Metadata)) : Option Text :=
  ticks.foldl (fun held tickMetadata => (carried key tickMetadata).or held) held

private theorem foldl_after (held : Validators) (ticks : List (Option Metadata)) :
    ticks.foldl Validators.after held =
      ⟨latest cacheIfNoneMatchKey held.ifNoneMatch ticks,
        latest cacheIfModifiedSinceKey held.ifModifiedSince ticks⟩ := by
  induction ticks generalizing held with
  | nil => rfl
  | cons tickMetadata rest ih => exact ih (held.after tickMetadata)

private theorem latest_eq_none (key : Text) (held : Option Text)
    (ticks : List (Option Metadata)) :
    latest key held ticks = none ↔
      held = none ∧ ∀ tickMetadata ∈ ticks, carried key tickMetadata = none := by
  induction ticks generalizing held with
  | nil => simp [latest]
  | cons tickMetadata rest ih =>
      have step := ih ((carried key tickMetadata).or held)
      rw [Option.or_eq_none_iff] at step
      constructor
      · intro nothing
        obtain ⟨⟨here, before⟩, after⟩ := step.mp nothing
        exact ⟨before, List.forall_mem_cons.mpr ⟨here, after⟩⟩
      · rintro ⟨before, each⟩
        obtain ⟨here, after⟩ := List.forall_mem_cons.mp each
        exact step.mpr ⟨⟨here, before⟩, after⟩

/-- The last text is that of the last tick exactly when a key sent before is sent again. -/
private theorem latest_eq_last (key : Text) (before : List (Option Metadata))
    (tickMetadata : Option Metadata) :
    latest key none (before ++ [tickMetadata]) = carried key tickMetadata ↔
      ((∃ earlier ∈ before, (carried key earlier).isSome) →
        (carried key tickMetadata).isSome) := by
  have split : latest key none (before ++ [tickMetadata]) =
      (carried key tickMetadata).or (latest key none before) := by
    rw [latest, List.foldl_append]
    rfl
  rw [split]
  cases here : carried key tickMetadata with
  | some value => simp
  | none =>
      rw [Option.none_or, latest_eq_none]
      constructor
      · rintro ⟨_, each⟩ ⟨earlier, member, sent⟩
        rw [each earlier member] at sent
        cases sent
      · intro never
        refine ⟨rfl, fun earlier member => ?_⟩
        cases sent : carried key earlier with
        | none => rfl
        | some value => exact absurd (never ⟨earlier, member, by rw [sent]; rfl⟩) (by simp)

/-- The validators that ticks before `index` carry are carried by that tick too. -/
def SentAgain (ticks : List (Option Metadata)) (index : Nat) : Prop :=
  ∀ key ∈ [cacheIfNoneMatchKey, cacheIfModifiedSinceKey],
    (∃ earlier ∈ ticks.take index, (carried key earlier).isSome) →
      (carried key (ticks[index]?.join)).isSome

/-- On a tick that both streams get to, `process` sees the same validators in both exactly when
the tick carries each validator again that an earlier one carried. -/
theorem validators_agree_iff (request : ProducerRequest) (frame : ExchangeFrame)
    (filterHistory : Option FilterDeltaHistory) (start : TableHandlerState State) (token : Bytes)
    (ticks : List (Option Metadata)) (index : Nat) (inMemory rebuilt : Validators)
    (started : createProducer deserializeBatch config request filterHistory = .ok start)
    (observed : (observedInMemory deserializeBatch config start ticks)[index]? = some inMemory)
    (again : (observedRebuilt deserializeBatch config request frame token ticks)[index]? =
      some rebuilt) :
    inMemory = rebuilt ↔ SentAgain ticks index := by
  obtain ⟨tickMetadata, here, alone⟩ :=
    observedRebuilt_get deserializeBatch config request frame token ticks index rebuilt again
  have held := observedInMemory_get deserializeBatch config start ticks index inMemory observed
  rw [createProducer_validators deserializeBatch config request filterHistory start started,
    List.take_add_one, here, Option.toList_some, foldl_after] at held
  have each (key : Text) := latest_eq_last key (ticks.take index) tickMetadata
  have present : ticks[index]?.join = tickMetadata := by
    rw [here]
    rfl
  have shown : inMemory = rebuilt ↔
      latest cacheIfNoneMatchKey none (ticks.take index ++ [tickMetadata]) =
          carried cacheIfNoneMatchKey tickMetadata ∧
        latest cacheIfModifiedSinceKey none (ticks.take index ++ [tickMetadata]) =
          carried cacheIfModifiedSinceKey tickMetadata := by
    rw [held, alone]
    simp only [Validators.after, Option.or_none, Validators.mk.injEq]
  rw [shown, each, each, SentAgain, present]
  simp only [List.forall_mem_cons, List.not_mem_nil, false_implies, implies_true, and_true]

end

/-! ## A validator on the first tick only -/

def tickingConfig : TableFunctionConfig Nat where
  name := text "count"
  initialState := fun _ => some 0
  process := fun _ _ => ⟨(· + 1), none, false, none⟩
  serializeUserState := fun state => .ok [UInt8.ofNat state]
  deserializeUserState := fun bytes => .ok (bytes.headD 0).toNat

def tickingRequest : ProducerRequest :=
  ⟨none, { outputSchema := ⟨[], .empty⟩ }, none⟩

def tickingFrame : ExchangeFrame where
  functionName := []
  initRequestPacked := []
  executionId := []
  maxWorkers := 0
  opaqueData := none
  userState := none
  filterHistory := none
  isProducer := true
  morePending := false

def tickingStart : TableHandlerState Nat :=
  ⟨some 0, ⟨none, none, none⟩, emptyFilterHistory⟩

def tickingToken : Bytes :=
  { tickingFrame with userState := some [0] }.serialize

def noDocuments : DeserializeBatch :=
  fun _ => .error .typeError

/-- The first of two ticks carries an if-none-match. -/
def validatedTicks : List (Option Metadata) :=
  [some (OrderedMap.empty.set cacheIfNoneMatchKey (text "v1")), some .empty]

/-- In memory the second tick still sees the validator of the first; rebuilt it sees none. -/
theorem validator_sticks_in_memory :
    createProducer noDocuments tickingConfig tickingRequest none = .ok tickingStart ∧
      mintProducerToken tickingConfig tickingFrame tickingStart = .ok tickingToken ∧
      observedInMemory noDocuments tickingConfig tickingStart validatedTicks =
        [⟨some (text "v1"), none⟩, ⟨some (text "v1"), none⟩] ∧
      observedRebuilt noDocuments tickingConfig tickingRequest tickingFrame tickingToken
        validatedTicks = [⟨some (text "v1"), none⟩, ⟨none, none⟩] :=
  ⟨rfl, rfl, by decide +kernel, by decide +kernel⟩

/-- Both of two ticks carry an if-none-match. -/
def revalidatedTicks : List (Option Metadata) :=
  [some (OrderedMap.empty.set cacheIfNoneMatchKey (text "v1")),
    some (OrderedMap.empty.set cacheIfNoneMatchKey (text "v2"))]

/-- On the second tick, which carries the validator of the first one again or does not. -/
theorem validators_agree_iff_sample :
    ((⟨some (text "v2"), none⟩ : Validators) = ⟨some (text "v2"), none⟩ ↔
        SentAgain revalidatedTicks 1) ∧
      ((⟨some (text "v1"), none⟩ : Validators) = ⟨none, none⟩ ↔ SentAgain validatedTicks 1) :=
  ⟨validators_agree_iff noDocuments tickingConfig tickingRequest tickingFrame none tickingStart
      tickingToken revalidatedTicks 1 _ _ rfl (by decide +kernel) (by decide +kernel),
    validators_agree_iff noDocuments tickingConfig tickingRequest tickingFrame none tickingStart
      tickingToken validatedTicks 1 _ _ rfl (by decide +kernel) (by decide +kernel)⟩

end VgiWorker.Functions
