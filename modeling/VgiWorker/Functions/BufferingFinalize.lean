import VgiWorker.Protocol.ServedStates

/-!
# The finalize stream of a buffering function

The state of the stream is built on its first tick, which a flag in the state of
`producerInit` marks. A token does not carry a null state, so that a tick rebuilt
after one finds the flag again.
-/

set_option autoImplicit false

namespace VgiWorker.Functions.BufferingFinalize

open VgiWorker.Js VgiWorker.Arrow VgiWorker.Protocol.UserState

def uninitName : Text := text "__tbf_uninit"

/-- The state of `producerInit`. -/
def producerInit : UserValue :=
  .object [(uninitName, .bool true)]

/-- `userState && userState.__tbf_uninit` as a condition. -/
def isUninit (userState : UserValue) : Bool :=
  userState.truthy && (userState.member uninitName).truthy

/-- `value ?? null`. -/
def orNull : UserValue → UserValue
  | .undefined => .null
  | value => value

/-- A tick: how it is served, and what `finalize` leaves of the state it gets. -/
structure Tick where
  fromToken : Bool
  finalize : UserValue → UserValue

/-- A tick that was served. `before` is the state that the tick before it left, and `received` the
state that `finalize` got. -/
structure ServedTick where
  fromToken : Bool
  before : UserValue
  ranHook : Bool
  received : UserValue
  left : UserValue

section

variable {library : VectorLibrary} (nested : Nested.NestedVectors library) (ipc : IpcLibrary)
  (dateText : Number → Text)

/-- One tick; the hook answers `initialFinalizeState runs` when it has run that often. -/
def serveTick (initialFinalizeState : Option (Nat → UserValue)) (runs : Nat) (state : UserValue)
    (tick : Tick) : Except Text ServedTick := do
  let held ← turnState nested ipc dateText producerInit tick.fromToken state
  if isUninit held then
    let userState :=
      match initialFinalizeState with
      | some hook => hook runs
      | none => .null
    .ok ⟨tick.fromToken, state, initialFinalizeState.isSome, userState,
      orNull (tick.finalize userState)⟩
  else .ok ⟨tick.fromToken, state, false, held, orNull (tick.finalize held)⟩

/-- The ticks that are served, up to one that fails. -/
def serve (initialFinalizeState : Option (Nat → UserValue)) (runs : Nat) (state : UserValue) :
    List Tick → List ServedTick
  | [] => []
  | tick :: rest =>
      match serveTick nested ipc dateText initialFinalizeState runs state tick with
      | .error _ => []
      | .ok served =>
          served :: serve initialFinalizeState (if served.ranHook then runs + 1 else runs)
            served.left rest

end

/-- The hook ran on the first tick alone, and every later one got the state left before it. -/
def InitialisedOnce : List ServedTick → Prop
  | [] => True
  | first :: later => first.ranHook = true ∧
      ∀ tick ∈ later, tick.ranHook = false ∧ tick.received = tick.before

/-- The state before the tick is not flagged, and a token that the tick is rebuilt from carries
it. -/
def Kept (tick : ServedTick) : Prop :=
  isUninit tick.before = false ∧
    (tick.fromToken = true → tick.before ≠ .null ∧ Survives tick.before)

section

variable {library : VectorLibrary} (nested : Nested.NestedVectors library) (ipc : IpcLibrary)
  (dateText : Number → Text)

/-! ## One tick -/

private theorem survives_not_nullish (state : UserValue) (survives : Survives state)
    (notNull : state ≠ .null) : state.isNullish = false := by
  rcases survives with rfl | ⟨⟨members, rfl⟩, _⟩
  · exact absurd rfl notNull
  · rfl

/-- What a rebuilt tick starts from is the state before it exactly where a token carries that. -/
private theorem fromToken_iff (state held : UserValue) (wellFormed : WellFormed state)
    (rebuilt : turnState nested ipc dateText producerInit true state = .ok held) :
    isUninit held = false ∧ held = state ↔
      isUninit state = false ∧ state ≠ .null ∧ Survives state := by
  rw [turnState, if_pos rfl] at rebuilt
  obtain ⟨stream, serialized, rebuilt⟩ := except_bind_ok _ _ _ rebuilt
  obtain ⟨userState, restored, rebuilt⟩ := except_bind_ok _ _ _ rebuilt
  cases rebuilt
  constructor
  · rintro ⟨unflagged, same⟩
    cases nullish : userState.isNullish with
    | true =>
        rw [nullish, if_pos rfl] at unflagged
        exact absurd unflagged (by decide)
    | false =>
        rw [nullish, if_neg Bool.false_ne_true] at unflagged same
        subst same
        refine ⟨unflagged, ?_, survives_of_deserialized dateText nested ipc _ wellFormed stream
          serialized restored⟩
        rintro rfl
        cases nullish
  · rintro ⟨unflagged, notNull, survives⟩
    rw [deserialized_of_survives dateText nested ipc _ wellFormed stream serialized survives]
      at restored
    cases restored
    rw [survives_not_nullish state survives notNull, if_neg Bool.false_ne_true]
    exact ⟨unflagged, rfl⟩

private theorem serveTick_iff (hook : Nat → UserValue) (runs : Nat) (state : UserValue)
    (wellFormed : WellFormed state) (tick : Tick) (served : ServedTick)
    (success : serveTick nested ipc dateText (some hook) runs state tick = .ok served) :
    (served.ranHook = false ∧ served.received = served.before ↔ Kept served) ∧
      served.before = state ∧
      (served.ranHook = false → served.left = orNull (tick.finalize served.received)) := by
  obtain ⟨held, started, success⟩ := except_bind_ok _ _ _ success
  have origin : isUninit held = false ∧ held = state ↔
      isUninit state = false ∧ (tick.fromToken = true → state ≠ .null ∧ Survives state) := by
    cases fromToken : tick.fromToken with
    | false =>
        rw [fromToken] at started
        cases started
        simp
    | true =>
        rw [fromToken] at started
        simpa using fromToken_iff nested ipc dateText state held wellFormed started
  cases flagged : isUninit held with
  | true =>
      rw [flagged, if_pos rfl] at success
      cases success
      refine ⟨iff_of_false (fun kept => Bool.false_ne_true kept.1.symm) fun kept => ?_, rfl,
        fun ran => absurd ran (by simp)⟩
      have unflagged := (origin.mpr kept).1
      rw [flagged] at unflagged
      cases unflagged
  | false =>
      rw [flagged, if_neg Bool.false_ne_true] at success
      cases success
      refine ⟨?_, rfl, fun _ => rfl⟩
      simpa [Kept, flagged] using origin

/-! ## Runs -/

private theorem wellFormed_orNull (value : UserValue) (wellFormed : WellFormed value) :
    WellFormed (orNull value) := by
  cases value <;> exact wellFormed

private theorem later_iff (hook : Nat → UserValue) (ticks : List Tick)
    (finalizes : ∀ tick ∈ ticks, ∀ value, WellFormed value → WellFormed (tick.finalize value))
    (runs : Nat) (state : UserValue) (wellFormed : WellFormed state) :
    (∀ tick ∈ serve nested ipc dateText (some hook) runs state ticks,
        tick.ranHook = false ∧ tick.received = tick.before) ↔
      ∀ tick ∈ serve nested ipc dateText (some hook) runs state ticks, Kept tick := by
  induction ticks generalizing runs state with
  | nil => simp [serve]
  | cons tick rest ih =>
      rw [serve]
      cases success : serveTick nested ipc dateText (some hook) runs state tick with
      | error fault => simp
      | ok served =>
          obtain ⟨here, before, left⟩ :=
            serveTick_iff nested ipc dateText hook runs state wellFormed tick served success
          simp only [List.forall_mem_cons, here]
          refine and_congr_right fun kept => ?_
          obtain ⟨notRun, received⟩ := here.mpr kept
          refine ih (fun other member => finalizes other (List.mem_cons_of_mem _ member)) _ _ ?_
          rw [left notRun, received, before]
          exact wellFormed_orNull _ (finalizes tick List.mem_cons_self state wellFormed)

private theorem first_tick (hook : Nat → UserValue) (tick : Tick) :
    serveTick nested ipc dateText (some hook) 0 producerInit tick =
      .ok ⟨tick.fromToken, producerInit, true, hook 0, orNull (tick.finalize (hook 0))⟩ := by
  have started : turnState nested ipc dateText producerInit tick.fromToken producerInit =
      .ok producerInit := by
    refine turnState_framework nested ipc dateText producerInit tick.fromToken _ (by simp)
      (by decide) (fun member isMember => ?_) fun member isMember => ?_
    · rw [List.mem_singleton.mp isMember, FitsText]
      decide +kernel
    · rw [List.mem_singleton.mp isMember]
      exact .flag true
  rw [serveTick, started, except_ok_bind]
  rfl

/-- The first tick runs the hook. It runs once and every later tick gets the state left before it
exactly where no state left between ticks is flagged and each token carries the state it is minted
from. -/
theorem finalize_state_once_iff (hook : Nat → UserValue) (ticks : List Tick)
    (hooks : ∀ runs, WellFormed (hook runs))
    (finalizes : ∀ tick ∈ ticks, ∀ value, WellFormed value → WellFormed (tick.finalize value)) :
    (ticks ≠ [] → serve nested ipc dateText (some hook) 0 producerInit ticks ≠ []) ∧
      (InitialisedOnce (serve nested ipc dateText (some hook) 0 producerInit ticks) ↔
        ∀ tick ∈ (serve nested ipc dateText (some hook) 0 producerInit ticks).tail, Kept tick) := by
  cases ticks with
  | nil => exact ⟨fun nonempty => absurd rfl nonempty, by simp [serve, InitialisedOnce]⟩
  | cons tick rest =>
      rw [serve, first_tick nested ipc dateText hook tick]
      refine ⟨fun _ => List.cons_ne_nil _ _, ?_⟩
      simp only [InitialisedOnce, List.tail_cons, true_and]
      refine later_iff nested ipc dateText hook rest
        (fun other member => finalizes other (List.mem_cons_of_mem _ member)) _ _ ?_
      exact wellFormed_orNull _ (finalizes tick List.mem_cons_self _ (hooks 0))

end

/-! ## Samples -/

/-- A state of one counter, which `finalize` leaves as it is. -/
def counting (value : Nat) : UserValue :=
  .object [(text "n", .number (Number.ofNat value))]

theorem finalize_state_once_iff_sample :
    ([⟨false, id⟩, ⟨true, id⟩] ≠ ([] : List Tick) →
        serve Nested.plainVectors sampleIpc (fun _ => []) (some fun _ => counting 1) 0 producerInit
          [⟨false, id⟩, ⟨true, id⟩] ≠ []) ∧
      (InitialisedOnce (serve Nested.plainVectors sampleIpc (fun _ => []) (some fun _ => counting 1) 0
          producerInit [⟨false, id⟩, ⟨true, id⟩]) ↔
        ∀ tick ∈ (serve Nested.plainVectors sampleIpc (fun _ => []) (some fun _ => counting 1) 0
          producerInit [⟨false, id⟩, ⟨true, id⟩]).tail, Kept tick) :=
  finalize_state_once_iff Nested.plainVectors sampleIpc (fun _ => []) (fun _ => counting 1)
    [⟨false, id⟩, ⟨true, id⟩] (fun _ => ⟨by simp, trivial, trivial⟩) (by simp)

/-- A hook that answers null runs again on the tick that is rebuilt from the token. -/
theorem null_state_built_again :
    (serve Nested.plainVectors sampleIpc (fun _ => []) (some fun _ => .null) 0 producerInit
        [⟨false, id⟩, ⟨true, id⟩]).map (·.ranHook) = [true, true] ∧
      ¬InitialisedOnce (serve Nested.plainVectors sampleIpc (fun _ => []) (some fun _ => .null) 0
        producerInit [⟨false, id⟩, ⟨true, id⟩]) := by
  have served : serve Nested.plainVectors sampleIpc (fun _ => []) (some fun _ => .null) 0 producerInit
      [⟨false, id⟩, ⟨true, id⟩] =
        [⟨false, producerInit, true, .null, .null⟩, ⟨true, .null, true, .null, .null⟩] := rfl
  rw [served]
  refine ⟨rfl, fun once => ?_⟩
  have again := (once.2 _ (List.mem_singleton_self _)).1
  cases again

end VgiWorker.Functions.BufferingFinalize
