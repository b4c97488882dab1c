import VgiWorker.Aggregate.Rpc
import VgiWorker.Aggregate.StateCodec

/-!
# Aggregate RPCs on any process

What the calls do to the group states, without files or caches, and that every
process does just that.
-/

set_option autoImplicit false

namespace VgiWorker.Aggregate

open VgiWorker.Js

variable {Columns OutputSchema Result : Type}
  (config : AggregateConfig Columns OutputSchema Result)

/-- What a call does to the group states and answers, for the parameters of the bind. -/
def applyRpc (params : StateValue) (states : StateMap) (rpc : AggregateRpc Columns OutputSchema) :
    StateMap × Except AggregateFault (Option Result) :=
  if rpc.isEmptyBatch then (states, .ok none)
  else
    match runRpc config ⟨states, params⟩ rpc with
    | (after, answer, persisted) =>
        ((fun gid => if gid ∈ persisted then after gid else states gid), answer)

/-- A grouped aggregate: what `update` does to the groups of its batch, and whether it throws,
depends on the states of these groups only. -/
def AggregateConfig.Grouped : Prop :=
  ∀ initial args states states' groupIds columns, (∀ gid ∈ groupIds, states gid = states' gid) →
    (config.update initial args states groupIds columns).2 =
        (config.update initial args states' groupIds columns).2 ∧
      ∀ gid ∈ groupIds, (config.update initial args states groupIds columns).1 gid =
        (config.update initial args states' groupIds columns).1 gid

/-- The hooks do the same for two values of the bind parameters. -/
structure AggregateConfig.Alike (params params' : StateValue) : Prop where
  initialState : config.initialState params = config.initialState params'
  update : ∀ initial, config.update initial (argsOf params) = config.update initial (argsOf params')
  combine : ∀ source target, config.combine source target params =
    config.combine source target params'
  finalize : ∀ groupIds states outputSchema,
    config.finalize groupIds states outputSchema (argsOf params) =
      config.finalize groupIds states outputSchema (argsOf params')

/-! ## Group ids -/

private theorem mem_uniqueGids_go (groupIds seen : List Gid) (gid : Gid) :
    gid ∈ groupIds.foldl (fun seen gid => if gid ∈ seen then seen else seen ++ [gid]) seen ↔
      gid ∈ seen ∨ gid ∈ groupIds := by
  induction groupIds generalizing seen with
  | nil => simp
  | cons first rest ih =>
      rw [List.foldl_cons, ih]
      by_cases known : first ∈ seen
      · rw [if_pos known, List.mem_cons]
        constructor
        · exact fun member => member.imp id Or.inr
        · rintro (member | rfl | member)
          · exact Or.inl member
          · exact Or.inl known
          · exact Or.inr member
      · rw [if_neg known, List.mem_append, List.mem_singleton, List.mem_cons, or_assoc]

theorem mem_uniqueGids (groupIds : List Gid) (gid : Gid) : gid ∈ uniqueGids groupIds ↔ gid ∈ groupIds := by
  unfold uniqueGids
  rw [mem_uniqueGids_go]
  simp

theorem mem_referencedGids (pairs : List (Gid × Gid)) (gid : Gid) :
    gid ∈ referencedGids pairs ↔ ∃ pair ∈ pairs, gid = pair.1 ∨ gid = pair.2 := by
  unfold referencedGids
  rw [mem_uniqueGids, List.mem_flatMap]
  simp

/-! ## A call depends on the states of its groups -/

variable {config}

private theorem mergeStates_alike {params params' : StateValue} (alike : config.Alike params params')
    (source target : Option StateValue) :
    mergeStates config params source target = mergeStates config params' source target := by
  unfold mergeStates
  rw [alike.initialState]
  simp only [alike.combine]

private theorem combinePairs_agree {params params' : StateValue} (alike : config.Alike params params')
    (groups : List Gid) (pairs : List (Gid × Gid))
    (inGroups : ∀ pair ∈ pairs, pair.1 ∈ groups ∧ pair.2 ∈ groups) (states states' : StateMap)
    (agree : ∀ gid ∈ groups, states gid = states' gid) (touched : List Gid) :
    (combinePairs config params states touched pairs).2 =
        (combinePairs config params' states' touched pairs).2 ∧
      ∀ gid ∈ groups, (combinePairs config params states touched pairs).1 gid =
        (combinePairs config params' states' touched pairs).1 gid := by
  induction pairs generalizing states states' touched with
  | nil => exact ⟨rfl, agree⟩
  | cons pair rest ih =>
      obtain ⟨source, target⟩ := pair
      obtain ⟨sourceIn, targetIn⟩ := inGroups (source, target) List.mem_cons_self
      have restIn := fun pair member => inGroups pair (List.mem_cons_of_mem _ member)
      unfold combinePairs
      rw [agree source sourceIn, agree target targetIn, mergeStates_alike alike]
      split
      · exact ih restIn states states' agree touched
      · split
        · next merged _ =>
          refine ih restIn _ _ ?_ _
          intro gid member
          by_cases same : gid = target
          · rw [same, Function.update_self, Function.update_self]
          · rw [Function.update_of_ne same, Function.update_of_ne same]
            exact agree gid member
        · exact ⟨rfl, agree⟩

private theorem touched_of_combinePairs (params : StateValue) (pairs : List (Gid × Gid))
    (states : StateMap) (touched left : List Gid)
    (done : (combinePairs config params states touched pairs).2 = .ok left) :
    ∀ gid ∈ left, gid ∈ touched ∨ ∃ pair ∈ pairs, gid = pair.2 := by
  induction pairs generalizing states touched with
  | nil =>
      intro gid member
      cases done
      exact Or.inl member
  | cons pair rest ih =>
      obtain ⟨source, target⟩ := pair
      intro gid member
      have later : (∃ pair ∈ rest, gid = pair.2) → ∃ pair ∈ (source, target) :: rest, gid = pair.2 := by
        rintro ⟨pair, pairIn, same⟩
        exact ⟨pair, List.mem_cons_of_mem _ pairIn, same⟩
      unfold combinePairs at done
      split at done
      · exact (ih states touched done gid member).imp id later
      · split at done
        · rcases ih _ _ done gid member with known | inRest
          · split at known
            · exact Or.inl known
            · rcases List.mem_append.mp known with before | here
              · exact Or.inl before
              · exact Or.inr ⟨_, List.mem_cons_self, List.mem_singleton.mp here⟩
          · exact Or.inr (later inRest)
        · cases done

/-- A call persists groups that it is about. -/
private theorem persisted_of_runRpc (entry : ExecEntry) (rpc : AggregateRpc Columns OutputSchema) :
    ∀ gid ∈ (runRpc config entry rpc).2.2, gid ∈ rpc.groupIds := by
  intro gid member
  cases rpc with
  | update groupIds columns =>
      simp only [runRpc] at member
      split at member
      · exact member
      · cases member
  | combine pairs =>
      simp only [runRpc] at member
      split at member
      · next states touched done =>
        have inTargets := touched_of_combinePairs entry.bindParams pairs entry.states [] touched
          (congrArg Prod.snd done) gid member
        obtain ⟨pair, pairIn, same⟩ := inTargets.resolve_left List.not_mem_nil
        exact (mem_referencedGids pairs gid).mpr ⟨pair, pairIn, Or.inr same⟩
      · cases member
  | finalize groupIds outputSchema =>
      simp only [runRpc] at member
      split at member <;> cases member
  | destructor groupIds => exact member

/-- Entries that agree on the requested groups, with parameters that the hooks do not tell apart,
answer and persist alike. -/
private theorem runRpc_agree (grouped : config.Grouped) (entry entry' : ExecEntry)
    (alike : config.Alike entry.bindParams entry'.bindParams)
    (rpc : AggregateRpc Columns OutputSchema)
    (agree : ∀ gid ∈ rpc.requestedGids, entry.states gid = entry'.states gid) :
    (runRpc config entry rpc).2 = (runRpc config entry' rpc).2 ∧
      ∀ gid ∈ (runRpc config entry rpc).2.2,
        (runRpc config entry rpc).1 gid = (runRpc config entry' rpc).1 gid := by
  cases rpc with
  | update groupIds columns =>
      have agree : ∀ gid ∈ groupIds, entry.states gid = entry'.states gid :=
        fun gid member => agree gid ((mem_uniqueGids groupIds gid).mpr member)
      obtain ⟨throws, states⟩ := grouped (config.initialState entry.bindParams)
        (argsOf entry.bindParams) entry.states entry'.states groupIds columns agree
      simp only [runRpc]
      rw [← alike.initialState, ← alike.update]
      generalize config.update (config.initialState entry.bindParams) (argsOf entry.bindParams)
        entry.states groupIds columns = left at throws states
      generalize config.update (config.initialState entry.bindParams) (argsOf entry.bindParams)
        entry'.states groupIds columns = right at throws states
      obtain ⟨leftStates, leftThrows⟩ := left
      obtain ⟨rightStates, rightThrows⟩ := right
      cases throws
      cases leftThrows with
      | none => exact ⟨rfl, fun gid member => states gid ((mem_uniqueGids groupIds gid).mp member)⟩
      | some message => exact ⟨rfl, nofun⟩
  | combine pairs =>
      have inGroups : ∀ pair ∈ pairs, pair.1 ∈ referencedGids pairs ∧ pair.2 ∈ referencedGids pairs :=
        fun pair member =>
          ⟨(mem_referencedGids pairs _).mpr ⟨pair, member, Or.inl rfl⟩,
            (mem_referencedGids pairs _).mpr ⟨pair, member, Or.inr rfl⟩⟩
      have persisted : ∀ gid ∈ (runRpc config entry (.combine pairs)).2.2,
          gid ∈ (.combine pairs : AggregateRpc Columns OutputSchema).groupIds :=
        persisted_of_runRpc entry (.combine pairs)
      obtain ⟨answers, states⟩ := combinePairs_agree alike (referencedGids pairs) pairs inGroups
        entry.states entry'.states agree []
      simp only [runRpc] at persisted ⊢
      generalize combinePairs config entry.bindParams entry.states [] pairs = left
        at answers states persisted
      generalize combinePairs config entry'.bindParams entry'.states [] pairs = right
        at answers states
      obtain ⟨leftStates, leftAnswer⟩ := left
      obtain ⟨rightStates, rightAnswer⟩ := right
      cases answers
      cases leftAnswer with
      | ok touched => exact ⟨rfl, fun gid member => states gid (persisted gid member)⟩
      | error message => exact ⟨rfl, nofun⟩
  | finalize groupIds outputSchema =>
      have handed : finalizeStates entry.states groupIds = finalizeStates entry'.states groupIds := by
        funext gid
        unfold finalizeStates
        split
        · next member => exact agree gid ((mem_uniqueGids groupIds gid).mpr member)
        · rfl
      simp only [runRpc]
      rw [handed, alike.finalize]
      split
      · exact ⟨rfl, nofun⟩
      · exact ⟨rfl, nofun⟩
  | destructor groupIds =>
      refine ⟨rfl, fun gid member => ?_⟩
      have member : gid ∈ groupIds := (mem_uniqueGids groupIds gid).mp member
      simp only [runRpc, if_pos member]

/-! ## A process does what the call does -/

section

variable (context : Option Json) (params : StateValue)

/-- Between calls: the entry, or else the context file, has parameters as good as the bind's. -/
private structure ProcessReady (config : AggregateConfig Columns OutputSchema Result)
    (context : Option Json) (params : StateValue) (memory : ProcessMemory) : Prop where
  cached : ∀ entry, memory.entry = some entry → config.Alike entry.bindParams params
  uncached : memory.entry = none →
    ∃ loaded, readContext context = .ok (some loaded) ∧ config.Alike loaded params

private structure ProcessEntered (config : AggregateConfig Columns OutputSchema Result)
    (context : Option Json) (params : StateValue) (memory : ProcessMemory)
    (rpc : AggregateRpc Columns OutputSchema) : Prop where
  ready : ProcessReady config context params memory
  noFault : memory.fault = none
  entry : rpc.isEmptyBatch = false → ∃ entry, memory.entry = some entry

private def ProcessSeen (memory : ProcessMemory) (gid : Gid) (state : Option StateValue) : Prop :=
  ∃ entry, memory.entry = some entry ∧ entry.states gid = state

/-- A group's file. -/
def groupFile (state : Option StateValue) : Option Json :=
  state.map writeJson

private def SurvivesFile (state : Option StateValue) : Prop :=
  ∀ value, state = some value → Lossless value

variable {context params}

private theorem tryReadJson_groupFile (state : Option StateValue) (survives : SurvivesFile state) :
    tryReadJson (groupFile state) = .ok state := by
  cases state with
  | none => rfl
  | some value => exact (tryReadJson_writeJson_iff value).mpr (survives value rfl)

private theorem enterExecution_entered (memory : ProcessMemory)
    (rpc : AggregateRpc Columns OutputSchema) (ready : ProcessReady config context params memory) :
    ProcessEntered config context params (enterExecution context memory rpc) rpc := by
  unfold enterExecution
  split
  · next empty =>
    exact ⟨⟨ready.cached, ready.uncached⟩, rfl, fun nonempty => absurd (empty.symm.trans nonempty) nofun⟩
  · cases cached : memory.entry with
    | some entry =>
        refine ⟨⟨fun other same => ?_, nofun⟩, rfl, fun _ => ⟨entry, rfl⟩⟩
        cases same
        exact ready.cached entry cached
    | none =>
        obtain ⟨loaded, read, alike⟩ := ready.uncached cached
        simp only [read]
        refine ⟨⟨fun other same => ?_, nofun⟩, rfl, fun _ => ⟨_, rfl⟩⟩
        cases same
        exact alike

private theorem loadGroup_entry (memory : ProcessMemory) (entry : ExecEntry)
    (held : memory.entry = some entry) (gid : Gid) (state : Option StateValue)
    (survives : SurvivesFile state) :
    loadGroup memory gid (groupFile state) =
      { memory with entry := some { entry with states := Function.update entry.states gid state } } := by
  unfold loadGroup
  rw [held]
  simp only [tryReadJson_groupFile state survives]

private theorem loadGroup_entered (memory : ProcessMemory) (rpc : AggregateRpc Columns OutputSchema)
    (gid : Gid) (state : Option StateValue)
    (entered : ProcessEntered config context params memory rpc) (survives : SurvivesFile state) :
    ProcessEntered config context params (loadGroup memory gid (groupFile state)) rpc := by
  cases held : memory.entry with
  | none =>
      have same : loadGroup memory gid (groupFile state) = memory := by
        unfold loadGroup
        rw [held]
      rw [same]
      exact entered
  | some entry =>
      rw [loadGroup_entry memory entry held gid state survives]
      refine ⟨⟨fun other same => ?_, nofun⟩, entered.noFault, fun _ => ⟨_, rfl⟩⟩
      cases same
      exact entered.ready.cached entry held

private theorem loadGroup_keeps (memory : ProcessMemory) (gid other : Gid) (state : Option StateValue)
    (file : Option Json) (seen : ProcessSeen memory gid state) (different : gid ≠ other) :
    ProcessSeen (loadGroup memory other file) gid state := by
  obtain ⟨entry, held, stateIs⟩ := seen
  unfold loadGroup
  rw [held]
  dsimp only
  split
  · exact ⟨_, rfl, (Function.update_of_ne different ..).trans stateIs⟩
  · exact ⟨entry, rfl, stateIs⟩

private theorem computeRpc_entry (memory : ProcessMemory) (entry : ExecEntry)
    (held : memory.entry = some entry) (noFault : memory.fault = none)
    (rpc : AggregateRpc Columns OutputSchema) (nonempty : rpc.isEmptyBatch = false) :
    computeRpc config memory rpc =
      ({ memory with entry := some { entry with states := (runRpc config entry rpc).1 } },
        (runRpc config entry rpc).2) := by
  unfold computeRpc
  rw [nonempty, held, noFault]
  rfl

private theorem computeRpc_empty (memory : ProcessMemory) (rpc : AggregateRpc Columns OutputSchema)
    (empty : rpc.isEmptyBatch = true) : computeRpc config memory rpc = (memory, .ok none, []) :=
  if_pos empty

private theorem applyRpc_run (states : StateMap) (rpc : AggregateRpc Columns OutputSchema)
    (nonempty : rpc.isEmptyBatch = false) :
    applyRpc config params states rpc =
      ((fun gid => if gid ∈ (runRpc config ⟨states, params⟩ rpc).2.2 then
        (runRpc config ⟨states, params⟩ rpc).1 gid else states gid),
        (runRpc config ⟨states, params⟩ rpc).2.1) := by
  unfold applyRpc
  rw [nonempty]
  rfl

private theorem applyRpc_empty (states : StateMap) (rpc : AggregateRpc Columns OutputSchema)
    (empty : rpc.isEmptyBatch = true) : applyRpc config params states rpc = (states, .ok none) :=
  if_pos empty

/-- What a process that has read its groups computes is what the call does to the states. -/
private theorem computeRpc_agree (grouped : config.Grouped) (memory : ProcessMemory)
    (rpc : AggregateRpc Columns OutputSchema) (states : StateMap)
    (entered : ProcessEntered config context params memory rpc)
    (nonempty : rpc.isEmptyBatch = false)
    (seen : ∀ gid ∈ (aggregateProcess config context).reads rpc, ProcessSeen memory gid (states gid)) :
    ∃ entry, memory.entry = some entry ∧
      (runRpc config entry rpc).2 = (runRpc config ⟨states, params⟩ rpc).2 ∧
      ∀ gid ∈ (runRpc config entry rpc).2.2,
        (runRpc config entry rpc).1 gid = (runRpc config ⟨states, params⟩ rpc).1 gid := by
  obtain ⟨entry, held⟩ := entered.entry nonempty
  refine ⟨entry, held, runRpc_agree grouped entry ⟨states, params⟩ (entered.ready.cached entry held)
    rpc fun gid requested => ?_⟩
  have isRead : gid ∈ (aggregateProcess config context).reads rpc := by
    change gid ∈ if rpc.isEmptyBatch then [] else rpc.requestedGids
    rw [nonempty]
    exact requested
  obtain ⟨other, held', stateIs⟩ := seen gid isRead
  rw [held] at held'
  cases held'
  exact stateIs

private theorem implements_applyRpc (grouped : config.Grouped) :
    SharedCells.Implements (aggregateProcess config context) (applyRpc config params) groupFile
      SurvivesFile (ProcessReady config context params) (ProcessEntered config context params)
      ProcessSeen where
  frame := by
    intro states rpc gid outside
    cases empty : rpc.isEmptyBatch with
    | true => rw [applyRpc_empty states rpc empty]
    | false =>
        rw [applyRpc_run states rpc empty]
        exact if_neg fun persisted => outside (persisted_of_runRpc _ rpc gid persisted)
  reads_footprint := by
    intro rpc gid isRead
    change gid ∈ (if rpc.isEmptyBatch then [] else rpc.requestedGids) at isRead
    split at isRead
    · cases isRead
    · cases rpc with
      | destructor groupIds => cases isRead
      | update groupIds columns => exact isRead
      | combine pairs => exact isRead
      | finalize groupIds outputSchema => exact isRead
  enter := enterExecution_entered
  load := fun memory rpc gid state entered survives =>
    loadGroup_entered memory rpc gid state entered survives
  load_seen := by
    intro memory rpc gid state entered isRead survives
    have nonempty : rpc.isEmptyBatch = false := by
      cases empty : rpc.isEmptyBatch with
      | false => rfl
      | true =>
          change gid ∈ (if rpc.isEmptyBatch then [] else rpc.requestedGids) at isRead
          rw [empty] at isRead
          cases isRead
    obtain ⟨entry, held⟩ := entered.entry nonempty
    change ProcessSeen (loadGroup memory gid (groupFile state)) gid state
    rw [loadGroup_entry memory entry held gid state survives]
    exact ⟨_, rfl, Function.update_self ..⟩
  load_keeps := fun memory gid state other file seen different =>
    loadGroup_keeps memory gid other state file seen different
  compute_ready := by
    intro memory rpc entered
    change ProcessReady config context params (computeRpc config memory rpc).1
    cases empty : rpc.isEmptyBatch with
    | true =>
        rw [computeRpc_empty memory rpc empty]
        exact entered.ready
    | false =>
        obtain ⟨entry, held⟩ := entered.entry empty
        rw [computeRpc_entry memory entry held entered.noFault rpc empty]
        refine ⟨fun other same => ?_, nofun⟩
        cases same
        exact entered.ready.cached entry held
  compute_answer := by
    intro memory rpc states entered seen
    change (computeRpc config memory rpc).2.1 = _
    cases empty : rpc.isEmptyBatch with
    | true => rw [computeRpc_empty memory rpc empty, applyRpc_empty states rpc empty]
    | false =>
        obtain ⟨entry, held, answers, _⟩ := computeRpc_agree grouped memory rpc states entered empty seen
        rw [computeRpc_entry memory entry held entered.noFault rpc empty,
          applyRpc_run states rpc empty, answers]
  compute_footprint := by
    intro memory rpc gid persisted
    change gid ∈ (computeRpc config memory rpc).2.2 at persisted
    unfold computeRpc at persisted
    split at persisted
    · cases persisted
    · split at persisted
      · cases persisted
      · exact persisted_of_runRpc _ _ gid persisted
      · cases persisted
      · cases persisted
  compute_stored := by
    intro memory rpc states entered seen gid persisted
    change gid ∈ (computeRpc config memory rpc).2.2 at persisted
    change persistedGroup (computeRpc config memory rpc).1 gid = _
    cases empty : rpc.isEmptyBatch with
    | true =>
        rw [computeRpc_empty memory rpc empty] at persisted
        cases persisted
    | false =>
        obtain ⟨entry, held, answers, after⟩ :=
          computeRpc_agree grouped memory rpc states entered empty seen
        rw [computeRpc_entry memory entry held entered.noFault rpc empty] at persisted ⊢
        have persisted : gid ∈ (runRpc config entry rpc).2.2 := persisted
        rw [applyRpc_run states rpc empty, ← answers]
        dsimp only
        rw [if_pos persisted, ← after gid persisted]
        rfl
  compute_kept := by
    intro memory rpc states entered seen gid _ unpersisted
    change gid ∉ (computeRpc config memory rpc).2.2 at unpersisted
    cases empty : rpc.isEmptyBatch with
    | true => rw [applyRpc_empty states rpc empty]
    | false =>
        obtain ⟨entry, held, answers, _⟩ := computeRpc_agree grouped memory rpc states entered empty seen
        rw [computeRpc_entry memory entry held entered.noFault rpc empty] at unpersisted
        have unpersisted : gid ∉ (runRpc config entry rpc).2.2 := unpersisted
        rw [applyRpc_run states rpc empty, ← answers]
        exact if_neg unpersisted

end

/-! ## Any assignment of calls to processes -/

/-- The memories of the processes when the execution has been bound. -/
def memoriesAfterBind {Process : Type} [DecidableEq Process] (binder : Process)
    (params : StateValue) (process : Process) : ProcessMemory :=
  if process = binder then boundMemory params else freshMemory

/-- No group has a state yet. -/
def noFiles : Gid → Option Json :=
  fun _ => none

/-- The group states after the first calls of an execution. -/
def statesAfter (config : AggregateConfig Columns OutputSchema Result) (params : StateValue)
    (rpcs : List (AggregateRpc Columns OutputSchema)) (count : Nat) : StateMap :=
  SharedCells.valuesAfter (applyRpc config params) (fun _ => none) rpcs count

/-- The hooks do the same for the bind parameters that another process reads from the context
file as for those that were stored. -/
def ContextServes (config : AggregateConfig Columns OutputSchema Result) (params : StateValue) :
    Prop :=
  ∃ loaded, readContext (some (writeContext params)) = .ok (some loaded) ∧
    config.Alike loaded params

private theorem ready_afterBind {Process : Type} [DecidableEq Process] (binder : Process)
    (config : AggregateConfig Columns OutputSchema Result) (params : StateValue)
    (others : ∀ process : Process, process ≠ binder → ContextServes config params)
    (process : Process) :
    ProcessReady config (some (writeContext params)) params
      (memoriesAfterBind binder params process) := by
  have own : config.Alike params params := ⟨rfl, fun _ => rfl, fun _ _ => rfl, fun _ _ _ => rfl⟩
  unfold memoriesAfterBind
  split
  · refine ⟨fun entry held => ?_, nofun⟩
    cases held
    exact own
  · next different => exact ⟨nofun, fun _ => others process different⟩

/-- Whichever processes serve the calls and however their file accesses interleave, a call has
the answer that it has in the process of the bind when this serves them all in order, if the
states survive their files and the context file serves every other process. -/
theorem answers_process_independent {Process : Type} [DecidableEq Process]
    (config : AggregateConfig Columns OutputSchema Result) (grouped : config.Grouped)
    (params : StateValue) (rpcs : List (AggregateRpc Columns OutputSchema))
    (statesSurvive : ∀ count gid state, statesAfter config params rpcs count gid = some state →
      tryReadJson (some (writeJson state)) = .ok (some state))
    (binder : Process)
    (others : ∀ process : Process, process ≠ binder → ContextServes config params)
    (system : SharedCells.System Gid (Option Json) ProcessMemory
      (Except AggregateFault (Option Result)) Process)
    (reached : SharedCells.Reaches (aggregateProcess config (some (writeContext params))) rpcs
      (.initial noFiles (memoriesAfterBind binder params)) system)
    (index : Nat) (answer : Except AggregateFault (Option Result))
    (answered : system.answers index = some answer) :
    ((aggregateProcess config (some (writeContext params))).serveAll (boundMemory params) noFiles
      rpcs)[index]? = some answer := by
  have survive : ∀ count gid, SurvivesFile (statesAfter config params rpcs count gid) := by
    intro count gid state held
    exact (tryReadJson_writeJson_iff state).mp (statesSurvive count gid state held)
  have ready := ready_afterBind binder config params others
  have own : ProcessReady config (some (writeContext params)) params (boundMemory params) := by
    have here := ready binder
    rwa [memoriesAfterBind, if_pos rfl] at here
  exact SharedCells.answers_eq_serveAll (implements_applyRpc grouped) (fun _ => none) rpcs survive _
    ready _ own system reached index answer answered

/-! ## What holds of every state -/

/-- The hooks only make states with a property. -/
structure AggregateConfig.Keeps (config : AggregateConfig Columns OutputSchema Result)
    (Holds : StateValue → Prop) : Prop where
  initialState : ∀ params state, config.initialState params = .ok state → Holds state
  update : ∀ initial args states groupIds columns, (∀ state, initial = .ok state → Holds state) →
    (∀ gid state, states gid = some state → Holds state) →
      ∀ gid state, (config.update initial args states groupIds columns).1 gid = some state →
        Holds state
  combine : ∀ source target params merged, Holds source → Holds target →
    config.combine source target params = .ok merged → Holds merged

section

variable {config : AggregateConfig Columns OutputSchema Result} {Holds : StateValue → Prop}
  (keeps : config.Keeps Holds) (params : StateValue)
include keeps

private theorem merged_of_keeps (source target : Option StateValue) (merged : StateValue)
    (sourceHolds : ∀ state, source = some state → Holds state)
    (targetHolds : ∀ state, target = some state → Holds state)
    (done : mergeStates config params source target = .ok merged) : Holds merged := by
  have combined : ∀ first second, Holds first → Holds second →
      config.combine first second params = .ok merged → Holds merged :=
    fun first second => keeps.combine first second params merged
  have fresh := keeps.initialState params
  unfold mergeStates at done
  cases source with
  | some first =>
      simp only [except_ok_bind] at done
      cases target with
      | some second => exact combined first second (sourceHolds _ rfl) (targetHolds _ rfl) done
      | none =>
          obtain ⟨second, made, done⟩ := except_bind_ok _ _ _ done
          exact combined first second (sourceHolds _ rfl) (fresh second made) done
  | none =>
      obtain ⟨first, made, done⟩ := except_bind_ok _ _ _ done
      cases target with
      | some second => exact combined first second (fresh first made) (targetHolds _ rfl) done
      | none =>
          obtain ⟨second, made', done⟩ := except_bind_ok _ _ _ done
          exact combined first second (fresh first made) (fresh second made') done

private theorem combinePairs_of_keeps (pairs : List (Gid × Gid)) (states : StateMap)
    (touched : List Gid) (holds : ∀ gid state, states gid = some state → Holds state) :
    ∀ gid state, (combinePairs config params states touched pairs).1 gid = some state →
      Holds state := by
  induction pairs generalizing states touched with
  | nil => exact holds
  | cons pair rest ih =>
      obtain ⟨source, target⟩ := pair
      unfold combinePairs
      split
      · exact ih states touched holds
      · split
        · next merged done =>
          refine ih _ _ fun gid state found => ?_
          by_cases here : gid = target
          · rw [here, Function.update_self] at found
            cases found
            exact merged_of_keeps keeps params _ _ _ (holds source) (holds target) done
          · rw [Function.update_of_ne here] at found
            exact holds gid state found
        · exact holds

private theorem runRpc_of_keeps (states : StateMap) (rpc : AggregateRpc Columns OutputSchema)
    (holds : ∀ gid state, states gid = some state → Holds state) :
    ∀ gid state, (runRpc config ⟨states, params⟩ rpc).1 gid = some state → Holds state := by
  cases rpc with
  | update groupIds columns =>
      have updated := keeps.update (config.initialState params) (argsOf params) states groupIds
        columns (keeps.initialState params) holds
      simp only [runRpc]
      generalize config.update (config.initialState params) (argsOf params) states groupIds
        columns = done at updated
      obtain ⟨after, thrown⟩ := done
      cases thrown with
      | none => exact updated
      | some message => exact updated
  | combine pairs =>
      have combined := combinePairs_of_keeps keeps params pairs states [] holds
      simp only [runRpc]
      generalize combinePairs config params states [] pairs = done at combined
      obtain ⟨after, answer⟩ := done
      cases answer with
      | ok touched => exact combined
      | error message => exact combined
  | finalize groupIds outputSchema =>
      simp only [runRpc]
      split <;> exact holds
  | destructor groupIds =>
      intro gid state found
      simp only [runRpc] at found
      split at found
      · cases found
      · exact holds gid state found

/-- A property that the hooks keep holds of the states after any calls. -/
theorem statesAfter_of_keeps (rpcs : List (AggregateRpc Columns OutputSchema)) (count : Nat)
    (gid : Gid) (state : StateValue) (held : statesAfter config params rpcs count gid = some state) :
    Holds state := by
  suffices run : ∀ (rpcs : List (AggregateRpc Columns OutputSchema)) (states : StateMap),
      (∀ gid state, states gid = some state → Holds state) →
        ∀ gid state, (rpcs.foldl (fun states rpc => (applyRpc config params states rpc).1) states)
          gid = some state → Holds state from
    run (rpcs.take count) _ (fun _ _ none => absurd none (by simp)) gid state held
  intro rpcs
  induction rpcs with
  | nil => exact fun states holds => holds
  | cons rpc rest ih =>
      intro states holds
      refine ih _ fun gid state found => ?_
      dsimp only at found
      cases empty : rpc.isEmptyBatch with
      | true =>
          rw [applyRpc_empty states rpc empty] at found
          exact holds gid state found
      | false =>
          rw [applyRpc_run states rpc empty] at found
          dsimp only at found
          split at found
          · exact runRpc_of_keeps keeps params states rpc holds gid state found
          · exact holds gid state found

end

/-! ## Counting on two processes -/

/-- A count that a state holds. -/
def countOf : Option StateValue → Int
  | some (.bigint count) => count
  | _ => 0

/-- An aggregate that counts the rows of each group, if its argument `limit` is a number. -/
def countingAggregate : AggregateConfig Unit Unit (List Int) where
  name := text "counting"
  initialState := fun _ => .ok (.bigint 0)
  update := fun _ _ states groupIds _ =>
    (fun gid =>
      if gid ∈ groupIds then some (.bigint (countOf (states gid) + groupIds.count gid))
      else states gid, none)
  combine := fun source target _ =>
    .ok (.bigint (countOf (some source) + countOf (some target)))
  finalize := fun groupIds states _ args =>
    match args with
    | some (.object members) =>
        match lookupEntry members (text "limit") with
        | some (.number _) => .ok (groupIds.map fun gid => countOf (states gid))
        | _ => .ok []
    | _ => .ok []

/-- What `aggregate_bind` stores for the argument `limit`. -/
def limitedParams (limit : Number) : StateValue :=
  BindParams.value
    ⟨[(text "limit", .number limit)], ⟨[], [], .null⟩, .null, [], .null⟩

/-- One process updates and combines, another one finalizes. -/
def countingCalls : List (Bool × AggregateRpc Unit Unit) :=
  [(true, .update [1, 2, 1] ()), (true, .combine [(2, 1)]), (false, .finalize [1] ())]

private theorem countingAggregate_keeps : countingAggregate.Keeps Lossless where
  initialState := by
    intro params state made
    cases made
    exact trivial
  update := by
    intro initial args states groupIds columns _ holds gid state found
    dsimp only [countingAggregate] at found
    split at found
    · cases found
      exact trivial
    · exact holds gid state found
  combine := by
    intro source target params merged _ _ made
    cases made
    exact trivial

theorem answers_process_independent_sample :
    ((aggregateProcess countingAggregate
      (some (writeContext (limitedParams Number.zero)))).serveAll
        (boundMemory (limitedParams Number.zero)) noFiles (countingCalls.map Prod.snd))[2]? =
      some (.ok (some [3])) := by
  have grouped : countingAggregate.Grouped := by
    intro initial args states states' groupIds columns agree
    refine ⟨rfl, fun gid member => ?_⟩
    simp only [countingAggregate, if_pos member, agree gid member]
  have serves : ContextServes countingAggregate (limitedParams Number.zero) :=
    ⟨_, rfl, ⟨rfl, fun _ => rfl, fun _ _ => rfl, fun _ _ _ => rfl⟩⟩
  have survive : ∀ count gid state,
      statesAfter countingAggregate (limitedParams Number.zero) (countingCalls.map Prod.snd)
        count gid = some state → tryReadJson (some (writeJson state)) = .ok (some state) :=
    fun count gid state held => (tryReadJson_writeJson_iff state).mpr
      (statesAfter_of_keeps countingAggregate_keeps _ _ count gid state held)
  exact answers_process_independent countingAggregate grouped (limitedParams Number.zero)
    (countingCalls.map Prod.snd) survive true (fun _ _ => serves) _
    (SharedCells.reaches_serveInTurn _ noFiles _ countingCalls) 2 _ rfl

/-! ## A bound that the context file does not keep -/

/-- An aggregate that says whether its constant argument `limit` is a number. -/
def limitedAggregate : AggregateConfig Unit Unit Bool where
  name := text "limited"
  initialState := fun _ => .ok (.bigint 0)
  update := fun _ _ states _ _ => (states, none)
  combine := fun _ target _ => .ok target
  finalize := fun _ _ _ args =>
    match args with
    | some (.object members) =>
        match lookupEntry members (text "limit") with
        | some (.number _) => .ok true
        | _ => .ok false
    | _ => .ok false

def finalizeNothing : List (Bool × AggregateRpc Unit Unit) :=
  [(false, .finalize [] ())]

/-- An infinite limit is null in every process but the one of the bind. -/
theorem limit_lost_elsewhere : ∃ system : SharedCells.System Gid (Option Json) ProcessMemory
      (Except AggregateFault (Option Bool)) Bool,
    SharedCells.Reaches
      (aggregateProcess limitedAggregate
        (some (writeContext (limitedParams (.infinity false))))) (finalizeNothing.map Prod.snd)
      (.initial noFiles (memoriesAfterBind true (limitedParams (.infinity false)))) system ∧
    system.answers 0 = some (.ok (some false)) ∧
    ((aggregateProcess limitedAggregate
      (some (writeContext (limitedParams (.infinity false))))).serveAll
        (boundMemory (limitedParams (.infinity false))) noFiles
          (finalizeNothing.map Prod.snd))[0]? =
      some (.ok (some true)) :=
  ⟨_, SharedCells.reaches_serveInTurn _ noFiles _ finalizeNothing, rfl, rfl⟩

end VgiWorker.Aggregate
