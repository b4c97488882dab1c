import Mathlib.Data.List.TakeDrop
import Mathlib.Data.List.Basic
import Mathlib.Logic.Function.Basic

/-!
# Workers over shared cells

Workers with private memories serve requests by reading shared cells, computing
and writing cells back. When requests about a common cell are ordered, every
answer is the one that a single worker gives that serves the requests in order.
-/

set_option autoImplicit false

namespace VgiWorker.SharedCells

/-- How a worker serves a request: `enter` prepares its memory, each cell of `reads` is loaded
in turn, and `compute` gives the answer and the keys whose cells are then stored. -/
structure Machine (Key Cell Op Memory Answer : Type) where
  footprint : Op → List Key
  reads : Op → List Key
  enter : Memory → Op → Memory
  load : Memory → Key → Cell → Memory
  compute : Memory → Op → Memory × Answer × List Key
  store : Memory → Key → Cell

variable {Key Cell Op Memory Answer Value Worker : Type} [DecidableEq Key] [DecidableEq Worker]

/-! ## One worker -/

namespace Machine

variable (machine : Machine Key Cell Op Memory Answer)

def loadAll (cells : Key → Cell) (memory : Memory) (keys : List Key) : Memory :=
  keys.foldl (fun memory key => machine.load memory key (cells key)) memory

def storeAll (memory : Memory) (cells : Key → Cell) (keys : List Key) : Key → Cell :=
  keys.foldl (fun cells key => Function.update cells key (machine.store memory key)) cells

/-- One request, from start to end. -/
def serve (memory : Memory) (cells : Key → Cell) (op : Op) : Memory × (Key → Cell) × Answer :=
  let (memory, answer, writes) :=
    machine.compute (machine.loadAll cells (machine.enter memory op) (machine.reads op)) op
  (memory, machine.storeAll memory cells writes, answer)

def serveAll (memory : Memory) (cells : Key → Cell) : List Op → List Answer
  | [] => []
  | op :: rest =>
      let (memory, cells, answer) := machine.serve memory cells op
      answer :: serveAll memory cells rest

end Machine

/-! ## Many workers -/

inductive Phase (Key Answer : Type) where
  | reading (todo : List Key)
  | writing (todo : List Key) (answer : Answer)

/-- The request a worker is at. -/
structure Running (Key Answer : Type) where
  index : Nat
  phase : Phase Key Answer

structure System (Key Cell Memory Answer Worker : Type) where
  cells : Key → Cell
  memories : Worker → Memory
  running : Worker → Option (Running Key Answer)
  answers : Nat → Option Answer

namespace System

/-- The worker goes on with a memory and a request of its own. -/
def move (system : System Key Cell Memory Answer Worker) (worker : Worker) (memory : Memory)
    (running : Option (Running Key Answer)) : System Key Cell Memory Answer Worker :=
  { system with
    memories := Function.update system.memories worker memory
    running := Function.update system.running worker running }

def withCells (system : System Key Cell Memory Answer Worker) (cells : Key → Cell) :
    System Key Cell Memory Answer Worker :=
  { system with cells := cells }

def answer (system : System Key Cell Memory Answer Worker) (index : Nat) (answer : Answer) :
    System Key Cell Memory Answer Worker :=
  { system with answers := Function.update system.answers index (some answer) }

/-- The request a worker has started. -/
def claim (system : System Key Cell Memory Answer Worker) (worker : Worker) : Option Nat :=
  (system.running worker).map Running.index

/-- No request has started. -/
def initial (cells : Key → Cell) (memories : Worker → Memory) :
    System Key Cell Memory Answer Worker where
  cells := cells
  memories := memories
  running := fun _ => none
  answers := fun _ => none

section

variable (system : System Key Cell Memory Answer Worker) (worker other : Worker) (memory : Memory)
  (running : Option (Running Key Answer))

omit [DecidableEq Key]

@[simp] theorem move_cells : (system.move worker memory running).cells = system.cells := rfl

omit [DecidableEq Worker] in
@[simp] theorem withCells_cells (cells : Key → Cell) : (system.withCells cells).cells = cells := rfl

omit [DecidableEq Worker] in
@[simp] theorem answer_self (index : Nat) (answer : Answer) :
    (system.answer index answer).answers index = some answer :=
  Function.update_self ..

@[simp] theorem move_answers : (system.move worker memory running).answers = system.answers := rfl

@[simp] theorem move_running_self : (system.move worker memory running).running worker = running :=
  Function.update_self ..

@[simp] theorem move_memories_self :
    (system.move worker memory running).memories worker = memory :=
  Function.update_self ..

theorem move_running_of_ne (different : other ≠ worker) :
    (system.move worker memory running).running other = system.running other :=
  Function.update_of_ne different ..

theorem move_memories_of_ne (different : other ≠ worker) :
    (system.move worker memory running).memories other = system.memories other :=
  Function.update_of_ne different ..

/-- A worker that goes on with its request keeps its claim. -/
theorem claim_move (at_ : Running Key Answer) (at_' : Running Key Answer)
    (runs : system.running worker = some at_) (same : at_'.index = at_.index) :
    (system.move worker memory (some at_')).claim = system.claim := by
  funext other
  unfold claim
  by_cases here : other = worker
  · rw [here, move_running_self, runs]
    exact congrArg some same
  · rw [move_running_of_ne _ _ _ _ _ here]

end

end System

/-- The requests at two positions are about a common cell. -/
def Conflict (machine : Machine Key Cell Op Memory Answer) (ops : List Op) (i j : Nat) : Prop :=
  ∃ op op' key, ops[i]? = some op ∧ ops[j]? = some op' ∧
    key ∈ machine.footprint op ∧ key ∈ machine.footprint op'

/-- One step of one worker. A request starts once, when the earlier requests about its cells
have been answered. -/
inductive Step (machine : Machine Key Cell Op Memory Answer) (ops : List Op)
    (system : System Key Cell Memory Answer Worker) :
    System Key Cell Memory Answer Worker → Prop where
  | start (worker : Worker) (index : Nat) (op : Op) (request : ops[index]? = some op)
      (idle : system.running worker = none) (unanswered : system.answers index = none)
      (unclaimed : ∀ other, system.claim other ≠ some index)
      (turn : ∀ earlier < index, Conflict machine ops earlier index →
        (system.answers earlier).isSome) :
      Step machine ops system (system.move worker (machine.enter (system.memories worker) op)
        (some ⟨index, .reading (machine.reads op)⟩))
  | read (worker : Worker) (index : Nat) (key : Key) (rest : List Key)
      (runs : system.running worker = some ⟨index, .reading (key :: rest)⟩) :
      Step machine ops system (system.move worker
        (machine.load (system.memories worker) key (system.cells key))
        (some ⟨index, .reading rest⟩))
  | compute (worker : Worker) (index : Nat) (op : Op) (request : ops[index]? = some op)
      (runs : system.running worker = some ⟨index, .reading []⟩) :
      Step machine ops system (system.move worker (machine.compute (system.memories worker) op).1
        (some ⟨index, .writing (machine.compute (system.memories worker) op).2.2
          (machine.compute (system.memories worker) op).2.1⟩))
  | write (worker : Worker) (index : Nat) (key : Key) (rest : List Key) (answer : Answer)
      (runs : system.running worker = some ⟨index, .writing (key :: rest) answer⟩) :
      Step machine ops system
        ((system.withCells (Function.update system.cells key
          (machine.store (system.memories worker) key))).move worker
          (system.memories worker) (some ⟨index, .writing rest answer⟩))
  | finish (worker : Worker) (index : Nat) (answer : Answer)
      (runs : system.running worker = some ⟨index, .writing [] answer⟩) :
      Step machine ops system
        ((system.answer index answer).move worker (system.memories worker) none)

/-- The systems that steps lead to. -/
inductive Reaches (machine : Machine Key Cell Op Memory Answer) (ops : List Op)
    (initial : System Key Cell Memory Answer Worker) :
    System Key Cell Memory Answer Worker → Prop where
  | refl : Reaches machine ops initial initial
  | step (system next : System Key Cell Memory Answer Worker) :
      Reaches machine ops initial system → Step machine ops system next →
      Reaches machine ops initial next

/-! ## One request after the other -/

/-- A worker serves a request from start to end. -/
def System.serve (system : System Key Cell Memory Answer Worker)
    (machine : Machine Key Cell Op Memory Answer) (worker : Worker) (index : Nat) (op : Op) :
    System Key Cell Memory Answer Worker :=
  let (memory, cells, answer) := machine.serve (system.memories worker) system.cells op
  { cells := cells
    memories := Function.update system.memories worker memory
    running := system.running
    answers := Function.update system.answers index (some answer) }

/-- Each worker serves its request when the one before has been answered. -/
def System.serveInTurn (machine : Machine Key Cell Op Memory Answer) :
    System Key Cell Memory Answer Worker → Nat → List (Worker × Op) →
      System Key Cell Memory Answer Worker
  | system, _, [] => system
  | system, index, (worker, op) :: rest =>
      (system.serve machine worker index op).serveInTurn machine (index + 1) rest

omit [DecidableEq Key] in
private theorem move_move (system : System Key Cell Memory Answer Worker) (worker : Worker)
    (memory memory' : Memory) (running running' : Option (Running Key Answer)) :
    (system.move worker memory running).move worker memory' running' =
      system.move worker memory' running' := by
  simp only [System.move, Function.update_idem]

private theorem reaches_read {machine : Machine Key Cell Op Memory Answer} {ops : List Op}
    {initial : System Key Cell Memory Answer Worker}
    (system : System Key Cell Memory Answer Worker) (worker : Worker) (index : Nat)
    (keys : List Key) (memory : Memory)
    (reached : Reaches machine ops initial
      (system.move worker memory (some ⟨index, .reading keys⟩))) :
    Reaches machine ops initial
      (system.move worker (machine.loadAll system.cells memory keys)
        (some ⟨index, .reading []⟩)) := by
  induction keys generalizing memory with
  | nil => exact reached
  | cons key rest ih =>
      have next : Step machine ops (system.move worker memory (some ⟨index, .reading (key :: rest)⟩))
          _ :=
        .read worker index key rest (System.move_running_self ..)
      rw [move_move, System.move_memories_self, System.move_cells] at next
      exact ih _ (.step _ _ reached next)

private theorem reaches_written {machine : Machine Key Cell Op Memory Answer} {ops : List Op}
    {initial : System Key Cell Memory Answer Worker}
    (system : System Key Cell Memory Answer Worker) (worker : Worker) (index : Nat)
    (memory : Memory) (answer : Answer) (keys : List Key) (cells : Key → Cell)
    (reached : Reaches machine ops initial
      ((system.withCells cells).move worker memory (some ⟨index, .writing keys answer⟩))) :
    Reaches machine ops initial
      ((system.withCells (machine.storeAll memory cells keys)).move worker memory
        (some ⟨index, .writing [] answer⟩)) := by
  induction keys generalizing cells with
  | nil => exact reached
  | cons key rest ih =>
      refine ih (Function.update cells key (machine.store memory key)) ?_
      have next : Step machine ops
          ((system.withCells cells).move worker memory
            (some ⟨index, .writing (key :: rest) answer⟩)) _ :=
        .write worker index key rest answer (System.move_running_self ..)
      rw [System.move_memories_self, System.move_cells, System.withCells_cells] at next
      have same : ∀ running, (((system.withCells cells).move worker memory
          (some ⟨index, .writing (key :: rest) answer⟩)).withCells
            (Function.update cells key (machine.store memory key))).move worker memory running =
          (system.withCells (Function.update cells key (machine.store memory key))).move worker
            memory running := by
        intro running
        simp only [System.move, System.withCells, Function.update_idem]
      rw [same] at next
      exact .step _ _ reached next

private theorem reaches_finished {machine : Machine Key Cell Op Memory Answer} {ops : List Op}
    {initial : System Key Cell Memory Answer Worker}
    (system : System Key Cell Memory Answer Worker) (worker : Worker) (index : Nat)
    (memory : Memory) (answer : Answer) (cells : Key → Cell)
    (idle : system.running worker = none)
    (reached : Reaches machine ops initial
      ((system.withCells cells).move worker memory (some ⟨index, .writing [] answer⟩))) :
    Reaches machine ops initial
      { cells := cells
        memories := Function.update system.memories worker memory
        running := system.running
        answers := Function.update system.answers index (some answer) } := by
  have last : Step machine ops
      ((system.withCells cells).move worker memory (some ⟨index, .writing [] answer⟩)) _ :=
    .finish worker index answer (System.move_running_self ..)
  have rests : Function.update system.running worker none = system.running :=
    (congrArg (Function.update system.running worker) idle.symm).trans (Function.update_eq_self ..)
  rw [System.move_memories_self] at last
  simp only [System.move, System.withCells, System.answer, Function.update_idem, rests] at last
  exact .step _ _ reached last

/-- A request whose earlier ones have been answered is served by an idle worker. -/
theorem reaches_serve {machine : Machine Key Cell Op Memory Answer} {ops : List Op}
    {initial system : System Key Cell Memory Answer Worker}
    (reached : Reaches machine ops initial system) (worker : Worker) (index : Nat) (op : Op)
    (request : ops[index]? = some op) (idle : ∀ other, system.running other = none)
    (unanswered : system.answers index = none)
    (answered : ∀ earlier < index, (system.answers earlier).isSome) :
    Reaches machine ops initial (system.serve machine worker index op) := by
  have starts : Step machine ops system _ :=
    .start worker index op request (idle worker) unanswered
      (fun other => by simp [System.claim, idle other]) fun earlier before _ =>
        answered earlier before
  have read := reaches_read system worker index _ _ (.step _ _ reached starts)
  have computes : Step machine ops
      (system.move worker (machine.loadAll system.cells (machine.enter (system.memories worker) op)
        (machine.reads op)) (some ⟨index, .reading []⟩)) _ :=
    .compute worker index op request (System.move_running_self ..)
  rw [move_move, System.move_memories_self] at computes
  have written := reaches_written system worker index _ _ _ system.cells (.step _ _ read computes)
  exact reaches_finished system worker index _ _ _ (idle worker) written

/-- Requests that are served in turn. -/
theorem reaches_serveInTurn (machine : Machine Key Cell Op Memory Answer)
    (cells : Key → Cell) (memories : Worker → Memory) (calls : List (Worker × Op)) :
    Reaches machine (calls.map Prod.snd) (.initial cells memories)
      ((System.initial cells memories).serveInTurn machine 0 calls) := by
  suffices run : ∀ (before rest : List (Worker × Op))
      (system : System Key Cell Memory Answer Worker), before ++ rest = calls →
      Reaches machine (calls.map Prod.snd) (.initial cells memories) system →
      (∀ worker, system.running worker = none) →
      (∀ index, (system.answers index).isSome ↔ index < before.length) →
      Reaches machine (calls.map Prod.snd) (.initial cells memories)
        (system.serveInTurn machine before.length rest) from
    run [] calls _ rfl .refl (fun _ => rfl) fun index => by simp [System.initial]
  intro before rest
  induction rest generalizing before with
  | nil => exact fun system _ reached _ _ => reached
  | cons call rest ih =>
      obtain ⟨worker, op⟩ := call
      intro system whole reached idle answered
      have request : (calls.map Prod.snd)[before.length]? = some op := by
        rw [← whole, List.map_append, List.getElem?_append_right (by simp)]
        simp
      have unanswered : system.answers before.length = none := by
        have none := (answered before.length).not.mpr (Nat.lt_irrefl _)
        simpa using none
      have served := reaches_serve reached worker before.length op request idle unanswered
        fun earlier lower => (answered earlier).mpr lower
      have next := ih (before ++ [(worker, op)]) (system.serve machine worker before.length op)
        (by rw [List.append_assoc]; exact whole) served idle ?_
      · rw [List.length_append] at next
        exact next
      · intro index
        rw [List.length_append, List.length_singleton]
        by_cases here : index = before.length
        · rw [here]
          simp [System.serve]
        · have kept : (system.serve machine worker before.length op).answers index =
              system.answers index := Function.update_of_ne here ..
          rw [kept, answered]
          omega

/-! ## What a worker computes -/

/-- A machine implements an update of values: `Ready` holds of a memory between requests,
`Entered` during one, and `Seen` says which values have been loaded. -/
structure Implements (machine : Machine Key Cell Op Memory Answer)
    (apply : (Key → Value) → Op → (Key → Value) × Answer) (encode : Value → Cell)
    (Survives : Value → Prop) (Ready : Memory → Prop) (Entered : Memory → Op → Prop)
    (Seen : Memory → Key → Value → Prop) : Prop where
  frame : ∀ values op key, key ∉ machine.footprint op → (apply values op).1 key = values key
  reads_footprint : ∀ op, ∀ key ∈ machine.reads op, key ∈ machine.footprint op
  enter : ∀ memory op, Ready memory → Entered (machine.enter memory op) op
  load : ∀ memory op key value, Entered memory op → Survives value →
    Entered (machine.load memory key (encode value)) op
  load_seen : ∀ memory op key value, Entered memory op → key ∈ machine.reads op → Survives value →
    Seen (machine.load memory key (encode value)) key value
  load_keeps : ∀ memory key value other cell, Seen memory key value → key ≠ other →
    Seen (machine.load memory other cell) key value
  compute_ready : ∀ memory op, Entered memory op → Ready (machine.compute memory op).1
  compute_answer : ∀ memory op values, Entered memory op →
    (∀ key ∈ machine.reads op, Seen memory key (values key)) →
    (machine.compute memory op).2.1 = (apply values op).2
  compute_footprint : ∀ memory op, ∀ key ∈ (machine.compute memory op).2.2,
    key ∈ machine.footprint op
  compute_stored : ∀ memory op values, Entered memory op →
    (∀ key ∈ machine.reads op, Seen memory key (values key)) →
    ∀ key ∈ (machine.compute memory op).2.2,
      machine.store (machine.compute memory op).1 key = encode ((apply values op).1 key)
  compute_kept : ∀ memory op values, Entered memory op →
    (∀ key ∈ machine.reads op, Seen memory key (values key)) →
    ∀ key ∈ machine.footprint op, key ∉ (machine.compute memory op).2.2 →
      (apply values op).1 key = values key

/-- The values after the first `count` requests, one after the other. -/
def valuesAfter (apply : (Key → Value) → Op → (Key → Value) × Answer) (values : Key → Value)
    (ops : List Op) (count : Nat) : Key → Value :=
  (ops.take count).foldl (fun values op => (apply values op).1) values

section

variable {machine : Machine Key Cell Op Memory Answer}
  {apply : (Key → Value) → Op → (Key → Value) × Answer} {encode : Value → Cell}
  {Survives : Value → Prop} {Ready : Memory → Prop} {Entered : Memory → Op → Prop}
  {Seen : Memory → Key → Value → Prop}

omit [DecidableEq Key] in
theorem valuesAfter_succ (values : Key → Value) (ops : List Op) (index : Nat) (op : Op)
    (request : ops[index]? = some op) :
    valuesAfter apply values ops (index + 1) = (apply (valuesAfter apply values ops index) op).1 := by
  unfold valuesAfter
  rw [List.take_add_one, request, List.foldl_append]
  rfl

/-! ## One worker serves in order -/

private theorem loadAll_seen (lawful : Implements machine apply encode Survives Ready Entered Seen)
    (values : Key → Value) (survive : ∀ key, Survives (values key)) (op : Op) (keys : List Key)
    (inReads : ∀ key ∈ keys, key ∈ machine.reads op) (memory : Memory)
    (entered : Entered memory op) :
    Entered (machine.loadAll (fun key => encode (values key)) memory keys) op ∧
      ∀ key, key ∈ keys ∨ Seen memory key (values key) →
        Seen (machine.loadAll (fun key => encode (values key)) memory keys) key (values key) := by
  induction keys generalizing memory with
  | nil => exact ⟨entered, fun key known => known.resolve_left List.not_mem_nil⟩
  | cons first rest ih =>
      have loaded := lawful.load memory op first (values first) entered (survive first)
      have firstSeen := lawful.load_seen memory op first (values first) entered
        (inReads first List.mem_cons_self) (survive first)
      obtain ⟨enteredAll, seenAll⟩ :=
        ih (fun key member => inReads key (List.mem_cons_of_mem _ member)) _ loaded
      refine ⟨enteredAll, fun key known => seenAll key ?_⟩
      by_cases same : key = first
      · rw [same]
        exact Or.inr firstSeen
      · rcases known with member | seen
        · exact Or.inl ((List.mem_cons.mp member).resolve_left same)
        · exact Or.inr (lawful.load_keeps _ _ _ _ _ seen same)

private theorem storeAll_apply (memory : Memory) (cells : Key → Cell) (keys : List Key) (key : Key) :
    machine.storeAll memory cells keys key =
      if key ∈ keys then machine.store memory key else cells key := by
  induction keys generalizing cells with
  | nil => rfl
  | cons first rest ih =>
      have step : machine.storeAll memory cells (first :: rest) =
          machine.storeAll memory (Function.update cells first (machine.store memory first)) rest :=
        rfl
      rw [step, ih]
      by_cases later : key ∈ rest
      · rw [if_pos later, if_pos (List.mem_cons_of_mem _ later)]
      · rw [if_neg later]
        by_cases same : key = first
        · rw [same, Function.update_self, if_pos List.mem_cons_self]
        · rw [Function.update_of_ne same,
            if_neg fun member => later ((List.mem_cons.mp member).resolve_left same)]

private theorem serve_spec (lawful : Implements machine apply encode Survives Ready Entered Seen)
    (values : Key → Value) (survive : ∀ key, Survives (values key)) (memory : Memory)
    (ready : Ready memory) (op : Op) :
    Ready (machine.serve memory (fun key => encode (values key)) op).1 ∧
      (machine.serve memory (fun key => encode (values key)) op).2.1 =
        (fun key => encode ((apply values op).1 key)) ∧
      (machine.serve memory (fun key => encode (values key)) op).2.2 = (apply values op).2 := by
  obtain ⟨entered, seen⟩ := loadAll_seen lawful values survive op (machine.reads op)
    (fun _ member => member) _ (lawful.enter memory op ready)
  have seen := fun key member => seen key (Or.inl member)
  refine ⟨lawful.compute_ready _ _ entered, ?_, lawful.compute_answer _ _ _ entered seen⟩
  funext key
  change machine.storeAll _ _ _ key = _
  rw [storeAll_apply]
  split
  · next written => exact lawful.compute_stored _ _ _ entered seen key written
  · next unwritten =>
    by_cases inFootprint : key ∈ machine.footprint op
    · rw [lawful.compute_kept _ _ _ entered seen key inFootprint unwritten]
    · rw [lawful.frame values op key inFootprint]

theorem serveAll_answers (lawful : Implements machine apply encode Survives Ready Entered Seen)
    (ops : List Op) (values : Key → Value)
    (survive : ∀ count key, Survives (valuesAfter apply values ops count key)) (memory : Memory)
    (ready : Ready memory) (index : Nat) :
    (machine.serveAll memory (fun key => encode (values key)) ops)[index]? =
      ops[index]?.map fun op => (apply (valuesAfter apply values ops index) op).2 := by
  induction ops generalizing values memory index with
  | nil => rfl
  | cons op rest ih =>
      obtain ⟨readyAfter, cellsAfter, answer⟩ := serve_spec lawful values (survive 0) memory ready op
      have served : machine.serveAll memory (fun key => encode (values key)) (op :: rest) =
          (machine.serve memory (fun key => encode (values key)) op).2.2 ::
            machine.serveAll (machine.serve memory (fun key => encode (values key)) op).1
              (machine.serve memory (fun key => encode (values key)) op).2.1 rest := rfl
      rw [served, cellsAfter, answer]
      cases index with
      | zero => rfl
      | succ index =>
          rw [List.getElem?_cons_succ, List.getElem?_cons_succ,
            ih (apply values op).1 (fun count => survive (count + 1)) _ readyAfter]
          rfl

/-! ## Many workers serve in any order -/

/-- Requests are claimed by one worker each, and in turn. -/
structure InTurn (machine : Machine Key Cell Op Memory Answer) (ops : List Op)
    (answers : Nat → Option Answer) (claim : Worker → Option Nat) : Prop where
  claimed : ∀ worker index, claim worker = some index →
    answers index = none ∧ ∃ op, ops[index]? = some op
  alone : ∀ worker other index, claim worker = some index → claim other = some index →
    worker = other
  order : ∀ i j, i < j → Conflict machine ops i j →
    (answers j).isSome ∨ (∃ worker, claim worker = some j) → (answers i).isSome

/-- What holds of a worker in each phase: a reader has seen the values its request is to read,
and a writer has the answer and stores the values that the request leaves. -/
structure Sound (machine : Machine Key Cell Op Memory Answer)
    (apply : (Key → Value) → Op → (Key → Value) × Answer) (encode : Value → Cell)
    (Ready : Memory → Prop) (Entered : Memory → Op → Prop) (Seen : Memory → Key → Value → Prop)
    (values : Key → Value) (ops : List Op)
    (system : System Key Cell Memory Answer Worker) : Prop where
  inTurn : InTurn machine ops system.answers system.claim
  idle : ∀ worker, system.running worker = none → Ready (system.memories worker)
  /-- The cell of a key holds what the first unanswered request about it is to read. -/
  settled : ∀ index op key, ops[index]? = some op → key ∈ machine.footprint op →
    system.answers index = none →
    (∀ earlier < index, ∀ op', ops[earlier]? = some op' → key ∈ machine.footprint op' →
      (system.answers earlier).isSome) →
    (∀ worker todo answer, system.running worker ≠ some ⟨index, .writing todo answer⟩) →
    system.cells key = encode (valuesAfter apply values ops index key)
  reading : ∀ worker index todo op, system.running worker = some ⟨index, .reading todo⟩ →
    ops[index]? = some op →
    Entered (system.memories worker) op ∧ (∀ key ∈ todo, key ∈ machine.reads op) ∧
      ∀ key ∈ machine.reads op, key ∉ todo →
        Seen (system.memories worker) key (valuesAfter apply values ops index key)
  writing : ∀ worker index todo answer op,
    system.running worker = some ⟨index, .writing todo answer⟩ → ops[index]? = some op →
    Ready (system.memories worker) ∧ answer = (apply (valuesAfter apply values ops index) op).2 ∧
      (∀ key ∈ todo, key ∈ machine.footprint op ∧ machine.store (system.memories worker) key =
        encode (valuesAfter apply values ops (index + 1) key)) ∧
      ∀ key ∈ machine.footprint op, key ∉ todo →
        system.cells key = encode (valuesAfter apply values ops (index + 1) key)
  answered : ∀ index answer, system.answers index = some answer →
    ∃ op, ops[index]? = some op ∧ answer = (apply (valuesAfter apply values ops index) op).2

omit [DecidableEq Key] in
private theorem valuesAfter_frame
    (lawful : Implements machine apply encode Survives Ready Entered Seen) (values : Key → Value)
    (ops : List Op) (key : Key) (i j : Nat) (before : i ≤ j)
    (untouched : ∀ m, i ≤ m → m < j → ∀ op, ops[m]? = some op → key ∉ machine.footprint op) :
    valuesAfter apply values ops j key = valuesAfter apply values ops i key := by
  induction j with
  | zero => rw [Nat.le_zero.mp before]
  | succ j ih =>
      rcases Nat.lt_or_ge j i with less | atLeast
      · rw [Nat.le_antisymm before less]
      · have earlier := ih atLeast fun m low high => untouched m low (Nat.lt_succ_of_lt high)
        rw [← earlier]
        cases request : ops[j]? with
        | none =>
            unfold valuesAfter
            rw [List.take_add_one, request]
            simp
        | some op =>
            rw [valuesAfter_succ values ops j op request]
            exact lawful.frame _ op key (untouched j atLeast (Nat.lt_succ_self j) op request)

omit [DecidableEq Key] [DecidableEq Worker] in
private theorem sound_initial
    (lawful : Implements machine apply encode Survives Ready Entered Seen) (values : Key → Value)
    (ops : List Op) (memories : Worker → Memory) (ready : ∀ worker, Ready (memories worker)) :
    Sound machine apply encode Ready Entered Seen values ops
      (System.initial (fun key => encode (values key)) memories :
        System Key Cell Memory Answer Worker) where
  inTurn := {
    claimed := nofun
    alone := nofun
    order := fun i j _ _ started => by
      rcases started with answered | ⟨worker, claimed⟩
      · cases answered
      · cases claimed }
  idle := fun worker _ => ready worker
  settled := fun index op key request inFootprint _ earlier _ => by
    have untouched : ∀ m, 0 ≤ m → m < index → ∀ op, ops[m]? = some op →
        key ∉ machine.footprint op := by
      intro m _ less op' request' member
      cases earlier m less op' request' member
    rw [valuesAfter_frame lawful values ops key 0 index (Nat.zero_le index) untouched]
    rfl
  reading := nofun
  writing := nofun
  answered := nofun

section

variable {values : Key → Value} {ops : List Op} {system : System Key Cell Memory Answer Worker}
  (sound : Sound machine apply encode Ready Entered Seen values ops system)

include sound

omit [DecidableEq Key] [DecidableEq Worker] in
/-- The cells of a request that is read are settled. -/
private theorem Sound.cell_of_reading (worker : Worker) (index : Nat) (todo : List Key)
    (runs : system.running worker = some ⟨index, .reading todo⟩) (op : Op)
    (request : ops[index]? = some op) (key : Key) (inFootprint : key ∈ machine.footprint op) :
    system.cells key = encode (valuesAfter apply values ops index key) := by
  have claims : system.claim worker = some index := congrArg (Option.map Running.index) runs
  refine sound.settled index op key request inFootprint (sound.inTurn.claimed worker _ claims).1 ?_ ?_
  · intro earlier less op' request' inFootprint'
    exact sound.inTurn.order earlier index less
      ⟨op', op, key, request', request, inFootprint', inFootprint⟩ (Or.inr ⟨worker, claims⟩)
  · intro other todo' answer runs'
    have same := sound.inTurn.alone worker other index claims
      (congrArg (Option.map Running.index) runs')
    rw [same, runs'] at runs
    cases runs

omit [DecidableEq Key] in
private theorem Sound.start (lawful : Implements machine apply encode Survives Ready Entered Seen)
    (worker : Worker) (index : Nat) (op : Op) (request : ops[index]? = some op)
    (idle : system.running worker = none) (unanswered : system.answers index = none)
    (unclaimed : ∀ other, system.claim other ≠ some index)
    (turn : ∀ earlier < index, Conflict machine ops earlier index →
      (system.answers earlier).isSome) :
    Sound machine apply encode Ready Entered Seen values ops
      (system.move worker (machine.enter (system.memories worker) op)
        (some ⟨index, .reading (machine.reads op)⟩)) := by
  have claims : ∀ other at_, (system.move worker (machine.enter (system.memories worker) op)
      (some ⟨index, .reading (machine.reads op)⟩)).claim other = some at_ →
      (other = worker ∧ at_ = index) ∨ system.claim other = some at_ := by
    intro other at_ claimed
    by_cases same : other = worker
    · rw [same] at claimed
      unfold System.claim at claimed
      rw [System.move_running_self] at claimed
      exact Or.inl ⟨same, (Option.some.inj claimed).symm⟩
    · unfold System.claim at claimed
      rw [System.move_running_of_ne _ _ _ _ _ same] at claimed
      exact Or.inr claimed
  constructor
  case inTurn =>
    constructor
    case claimed =>
      intro other at_ claimed
      rcases claims other at_ claimed with ⟨_, rfl⟩ | before
      · exact ⟨unanswered, op, request⟩
      · exact sound.inTurn.claimed other at_ before
    case alone =>
      intro one other at_ claimed claimed'
      rcases claims one at_ claimed with ⟨here, sameIndex⟩ | before
      · rcases claims other at_ claimed' with ⟨here', _⟩ | before'
        · rw [here, here']
        · exact absurd (sameIndex ▸ before') (unclaimed other)
      · rcases claims other at_ claimed' with ⟨_, sameIndex⟩ | before'
        · exact absurd (sameIndex ▸ before) (unclaimed one)
        · exact sound.inTurn.alone one other at_ before before'
    case order =>
      intro i j less conflict started
      rcases started with answered | ⟨other, claimed⟩
      · exact sound.inTurn.order i j less conflict (Or.inl answered)
      · rcases claims other j claimed with ⟨_, rfl⟩ | before
        · exact turn i less conflict
        · exact sound.inTurn.order i j less conflict (Or.inr ⟨other, before⟩)
  case idle =>
    intro other rests
    by_cases same : other = worker
    · rw [same, System.move_running_self] at rests
      cases rests
    · rw [System.move_running_of_ne _ _ _ _ _ same] at rests
      rw [System.move_memories_of_ne _ _ _ _ _ same]
      exact sound.idle other rests
  case settled =>
    intro index' op' key request' inFootprint open_ earlier notWriting
    refine sound.settled index' op' key request' inFootprint open_ earlier ?_
    intro other todo answer runs
    have different : other ≠ worker := by
      intro same
      rw [same, idle] at runs
      cases runs
    exact notWriting other todo answer
      ((System.move_running_of_ne _ _ _ _ _ different).trans runs)
  case reading =>
    intro other index' todo op' runs request'
    by_cases same : other = worker
    · rw [same, System.move_running_self] at runs
      cases runs
      rw [request] at request'
      cases request'
      rw [same, System.move_memories_self]
      exact ⟨lawful.enter _ op (sound.idle worker idle), fun _ member => member,
        fun key member notTodo => absurd member notTodo⟩
    · rw [System.move_running_of_ne _ _ _ _ _ same] at runs
      rw [System.move_memories_of_ne _ _ _ _ _ same]
      exact sound.reading other index' todo op' runs request'
  case writing =>
    intro other index' todo answer op' runs request'
    by_cases same : other = worker
    · rw [same, System.move_running_self] at runs
      cases runs
    · rw [System.move_running_of_ne _ _ _ _ _ same] at runs
      rw [System.move_memories_of_ne _ _ _ _ _ same]
      exact sound.writing other index' todo answer op' runs request'
  case answered => exact sound.answered

omit [DecidableEq Key] in
/-- A worker goes on with its request, which alone may change the cells it is about. -/
private theorem Sound.proceed (worker : Worker) (index : Nat) (op : Op)
    (request : ops[index]? = some op) (phase phase' : Phase Key Answer) (memory : Memory)
    (cells : Key → Cell) (runs : system.running worker = some ⟨index, phase⟩)
    (frame : ∀ key, key ∉ machine.footprint op → cells key = system.cells key)
    (reads : ∀ todo, phase' = .reading todo →
      cells = system.cells ∧ (∃ before, phase = .reading before) ∧ Entered memory op ∧
        (∀ key ∈ todo, key ∈ machine.reads op) ∧
        ∀ key ∈ machine.reads op, key ∉ todo →
          Seen memory key (valuesAfter apply values ops index key))
    (writes : ∀ todo answer, phase' = .writing todo answer →
      Ready memory ∧ answer = (apply (valuesAfter apply values ops index) op).2 ∧
        (∀ key ∈ todo, key ∈ machine.footprint op ∧
          machine.store memory key = encode (valuesAfter apply values ops (index + 1) key)) ∧
        ∀ key ∈ machine.footprint op, key ∉ todo →
          cells key = encode (valuesAfter apply values ops (index + 1) key)) :
    Sound machine apply encode Ready Entered Seen values ops
      ((system.withCells cells).move worker memory (some ⟨index, phase'⟩)) := by
  have claims : system.claim worker = some index := congrArg (Option.map Running.index) runs
  have sameClaims : ((system.withCells cells).move worker memory
      (some ⟨index, phase'⟩)).claim = system.claim :=
    System.claim_move (system.withCells cells) worker memory ⟨index, phase⟩ ⟨index, phase'⟩ runs rfl
  obtain ⟨unanswered, _⟩ := sound.inTurn.claimed worker index claims
  -- No other unanswered request about a cell of this one is at its turn.
  have ownCell : ∀ index' op' key, ops[index']? = some op' → key ∈ machine.footprint op' →
      key ∈ machine.footprint op → system.answers index' = none →
      (∀ earlier < index', ∀ op'', ops[earlier]? = some op'' → key ∈ machine.footprint op'' →
        (system.answers earlier).isSome) → index' = index := by
    intro index' op' key request' inFootprint' inFootprint open_ earlier
    rcases Nat.lt_trichotomy index' index with less | same | greater
    · have answered := sound.inTurn.order index' index less
        ⟨op', op, key, request', request, inFootprint', inFootprint⟩ (Or.inr ⟨worker, claims⟩)
      rw [open_] at answered
      cases answered
    · exact same
    · have answered := earlier index greater op request inFootprint
      rw [unanswered] at answered
      cases answered
  constructor
  case inTurn =>
    rw [sameClaims]
    exact sound.inTurn
  case idle =>
    intro other rests
    by_cases same : other = worker
    · rw [same, System.move_running_self] at rests
      cases rests
    · rw [System.move_running_of_ne _ _ _ _ _ same] at rests
      rw [System.move_memories_of_ne _ _ _ _ _ same]
      exact sound.idle other rests
  case settled =>
    intro index' op' key request' inFootprint' open_ earlier notWriting
    by_cases inFootprint : key ∈ machine.footprint op
    · have same := ownCell index' op' key request' inFootprint' inFootprint open_ earlier
      cases shape : phase' with
      | writing todo answer =>
          refine absurd ?_ (notWriting worker todo answer)
          rw [System.move_running_self, same, shape]
      | reading todo =>
          obtain ⟨sameCells, ⟨before, wasReading⟩, _⟩ := reads todo shape
          rw [wasReading] at runs
          rw [System.move_cells, System.withCells_cells, same, sameCells]
          exact sound.cell_of_reading worker index before runs op request key inFootprint
    · rw [System.move_cells, System.withCells_cells, frame key inFootprint]
      refine sound.settled index' op' key request' inFootprint' open_ earlier ?_
      intro other todo answer runs'
      by_cases same : other = worker
      · rw [same, runs] at runs'
        cases runs'
        rw [request] at request'
        cases request'
        exact inFootprint inFootprint'
      · exact notWriting other todo answer
          ((System.move_running_of_ne _ _ _ _ _ same).trans runs')
  case reading =>
    intro other index' todo op' runs' request'
    by_cases same : other = worker
    · rw [same, System.move_running_self] at runs'
      cases runs'
      rw [request] at request'
      cases request'
      rw [same, System.move_memories_self]
      exact (reads todo rfl).2.2
    · rw [System.move_running_of_ne _ _ _ _ _ same] at runs'
      rw [System.move_memories_of_ne _ _ _ _ _ same]
      exact sound.reading other index' todo op' runs' request'
  case writing =>
    intro other index' todo answer op' runs' request'
    by_cases same : other = worker
    · rw [same, System.move_running_self] at runs'
      cases runs'
      rw [request] at request'
      cases request'
      rw [same, System.move_memories_self]
      exact writes todo answer rfl
    · rw [System.move_running_of_ne _ _ _ _ _ same] at runs'
      rw [System.move_memories_of_ne _ _ _ _ _ same]
      obtain ⟨ready, answerIs, stores, written⟩ :=
        sound.writing other index' todo answer op' runs' request'
      refine ⟨ready, answerIs, stores, fun key inFootprint' notTodo => ?_⟩
      have claims' : system.claim other = some index' := congrArg (Option.map Running.index) runs'
      have apart : key ∉ machine.footprint op := by
        intro inFootprint
        obtain ⟨open_, _⟩ := sound.inTurn.claimed other index' claims'
        refine same (sound.inTurn.alone other worker index' claims' ?_)
        rw [claims]
        refine congrArg some (ownCell index' op' key request' inFootprint' inFootprint open_ ?_).symm
        intro earlier less op'' request'' inFootprint''
        exact sound.inTurn.order earlier index' less
          ⟨op'', op', key, request'', request', inFootprint'', inFootprint'⟩ (Or.inr ⟨other, claims'⟩)
      rw [System.move_cells, System.withCells_cells, frame key apart]
      exact written key inFootprint' notTodo
  case answered => exact sound.answered

omit [DecidableEq Key] in
private theorem Sound.finish
    (lawful : Implements machine apply encode Survives Ready Entered Seen) (worker : Worker)
    (index : Nat) (answer : Answer)
    (runs : system.running worker = some ⟨index, .writing [] answer⟩) :
    Sound machine apply encode Ready Entered Seen values ops
      ((system.answer index answer).move worker (system.memories worker) none) := by
  have claims : system.claim worker = some index := congrArg (Option.map Running.index) runs
  obtain ⟨unanswered, op, request⟩ := sound.inTurn.claimed worker index claims
  obtain ⟨ready, answerIs, _, written⟩ := sound.writing worker index [] answer op runs request
  have answersOf : ∀ other, other ≠ index →
      ((system.answer index answer).move worker (system.memories worker) none).answers other =
        system.answers other := fun other different => Function.update_of_ne different ..
  have stillAnswered : ∀ other, (system.answers other).isSome →
      (((system.answer index answer).move worker (system.memories worker) none).answers
        other).isSome := by
    intro other answered
    by_cases same : other = index
    · rw [same, unanswered] at answered
      cases answered
    · rw [answersOf other same]
      exact answered
  have claimsLeft : ∀ other at_,
      ((system.answer index answer).move worker (system.memories worker) none).claim other =
        some at_ → other ≠ worker ∧ system.claim other = some at_ := by
    intro other at_ claimed
    unfold System.claim at claimed
    by_cases same : other = worker
    · rw [same, System.move_running_self] at claimed
      cases claimed
    · rw [System.move_running_of_ne _ _ _ _ _ same] at claimed
      exact ⟨same, claimed⟩
  constructor
  case inTurn =>
    constructor
    case claimed =>
      intro other at_ claimed
      obtain ⟨different, before⟩ := claimsLeft other at_ claimed
      rw [answersOf at_ fun same =>
        different (sound.inTurn.alone other worker index (same ▸ before) claims)]
      exact sound.inTurn.claimed other at_ before
    case alone =>
      intro one other at_ claimed claimed'
      exact sound.inTurn.alone one other at_ (claimsLeft one at_ claimed).2
        (claimsLeft other at_ claimed').2
    case order =>
      intro i j less conflict started
      apply stillAnswered
      refine sound.inTurn.order i j less conflict ?_
      rcases started with answered | ⟨other, claimed⟩
      · by_cases same : j = index
        · exact Or.inr ⟨worker, same ▸ claims⟩
        · rw [answersOf j same] at answered
          exact Or.inl answered
      · exact Or.inr ⟨other, (claimsLeft other j claimed).2⟩
  case idle =>
    intro other rests
    by_cases same : other = worker
    · rw [same, System.move_memories_self]
      exact ready
    · rw [System.move_running_of_ne _ _ _ _ _ same] at rests
      rw [System.move_memories_of_ne _ _ _ _ _ same]
      exact sound.idle other rests
  case settled =>
    intro index' op' key request' inFootprint' open_ earlier notWriting
    have different : index' ≠ index := by
      intro same
      rw [same] at open_
      rw [System.move_answers, System.answer_self] at open_
      cases open_
    rw [answersOf index' different] at open_
    by_cases inFootprint : key ∈ machine.footprint op
    · rcases Nat.lt_trichotomy index' index with less | same | greater
      · have answered := sound.inTurn.order index' index less
          ⟨op', op, key, request', request, inFootprint', inFootprint⟩ (Or.inr ⟨worker, claims⟩)
        rw [open_] at answered
        cases answered
      · exact absurd same different
      · -- Nothing between this request and the next about the key has been started.
        rw [valuesAfter_frame lawful values ops key (index + 1) index' greater ?_]
        · exact written key inFootprint List.not_mem_nil
        · intro m low high op'' request'' inFootprint''
          have answered := earlier m high op'' request'' inFootprint''
          rw [answersOf m (by omega)] at answered
          have before := sound.inTurn.order index m (by omega)
            ⟨op, op'', key, request, request'', inFootprint, inFootprint''⟩ (Or.inl answered)
          rw [unanswered] at before
          cases before
    · refine sound.settled index' op' key request' inFootprint' open_ ?_ ?_
      · intro m less op'' request'' inFootprint''
        have answered := earlier m less op'' request'' inFootprint''
        rwa [answersOf m] at answered
        intro same
        rw [same, request] at request''
        cases request''
        exact inFootprint inFootprint''
      · intro other todo answer' runs'
        by_cases same : other = worker
        · rw [same, runs] at runs'
          cases runs'
          exact different rfl
        · exact notWriting other todo answer'
            ((System.move_running_of_ne _ _ _ _ _ same).trans runs')
  case reading =>
    intro other index' todo op' runs' request'
    by_cases same : other = worker
    · rw [same, System.move_running_self] at runs'
      cases runs'
    · rw [System.move_running_of_ne _ _ _ _ _ same] at runs'
      rw [System.move_memories_of_ne _ _ _ _ _ same]
      exact sound.reading other index' todo op' runs' request'
  case writing =>
    intro other index' todo answer' op' runs' request'
    by_cases same : other = worker
    · rw [same, System.move_running_self] at runs'
      cases runs'
    · rw [System.move_running_of_ne _ _ _ _ _ same] at runs'
      rw [System.move_memories_of_ne _ _ _ _ _ same]
      exact sound.writing other index' todo answer' op' runs' request'
  case answered =>
    intro index' answer' answered
    by_cases same : index' = index
    · rw [same] at answered ⊢
      rw [System.move_answers, System.answer_self] at answered
      cases answered
      exact ⟨op, request, answerIs⟩
    · rw [answersOf index' same] at answered
      exact sound.answered index' answer' answered

end

/-- Every step keeps it. -/
private theorem sound_step (lawful : Implements machine apply encode Survives Ready Entered Seen)
    (values : Key → Value) (ops : List Op)
    (survive : ∀ count key, Survives (valuesAfter apply values ops count key))
    (system next : System Key Cell Memory Answer Worker)
    (sound : Sound machine apply encode Ready Entered Seen values ops system)
    (step : Step machine ops system next) :
    Sound machine apply encode Ready Entered Seen values ops next := by
  cases step with
  | start worker index op request idle unanswered unclaimed turn =>
      exact sound.start lawful worker index op request idle unanswered unclaimed turn
  | read worker index key rest runs =>
      have claims : system.claim worker = some index := congrArg (Option.map Running.index) runs
      obtain ⟨_, op, request⟩ := sound.inTurn.claimed worker index claims
      obtain ⟨entered, todoReads, seen⟩ := sound.reading worker index _ op runs request
      have isRead := todoReads key List.mem_cons_self
      have cell := sound.cell_of_reading worker index _ runs op request key
        (lawful.reads_footprint op key isRead)
      refine sound.proceed worker index op request _ _ _ system.cells runs (fun _ _ => rfl) ?_ nofun
      intro todo shape
      cases shape
      refine ⟨rfl, ⟨_, rfl⟩, ?_, fun other member => todoReads other (List.mem_cons_of_mem _ member), ?_⟩
      · rw [cell]
        exact lawful.load _ op key _ entered (survive index key)
      · intro other otherRead notRest
        by_cases same : other = key
        · rw [same, cell]
          exact lawful.load_seen _ op key _ entered isRead (survive index key)
        · refine lawful.load_keeps _ _ _ _ _ (seen other otherRead ?_) same
          exact fun member => notRest ((List.mem_cons.mp member).resolve_left same)
  | compute worker index op request runs =>
      obtain ⟨entered, _, seen⟩ := sound.reading worker index _ op runs request
      have seen := fun key member => seen key member List.not_mem_nil
      have left : valuesAfter apply values ops (index + 1) =
          (apply (valuesAfter apply values ops index) op).1 :=
        valuesAfter_succ values ops index op request
      refine sound.proceed worker index op request _ _ _ system.cells runs (fun _ _ => rfl) nofun ?_
      intro todo answer shape
      cases shape
      refine ⟨lawful.compute_ready _ op entered, lawful.compute_answer _ op _ entered seen, ?_, ?_⟩
      · intro key member
        rw [left]
        exact ⟨lawful.compute_footprint _ op key member,
          lawful.compute_stored _ op _ entered seen key member⟩
      · intro key inFootprint kept
        rw [left, lawful.compute_kept _ op _ entered seen key inFootprint kept]
        exact sound.cell_of_reading worker index _ runs op request key inFootprint
  | write worker index key rest answer runs =>
      have claims : system.claim worker = some index := congrArg (Option.map Running.index) runs
      obtain ⟨_, op, request⟩ := sound.inTurn.claimed worker index claims
      obtain ⟨ready, answerIs, stores, written⟩ :=
        sound.writing worker index _ answer op runs request
      obtain ⟨inFootprint, stored⟩ := stores key List.mem_cons_self
      refine sound.proceed worker index op request _ _ _ _ runs ?_ nofun ?_
      · intro other apart
        have different : other ≠ key := by
          intro same
          rw [same] at apart
          exact apart inFootprint
        exact Function.update_of_ne different ..
      · intro todo answer' shape
        cases shape
        refine ⟨ready, answerIs, fun other member => stores other (List.mem_cons_of_mem _ member), ?_⟩
        intro other otherIn notRest
        by_cases same : other = key
        · rw [same, Function.update_self, stored]
        · rw [Function.update_of_ne same]
          exact written other otherIn fun member =>
            notRest ((List.mem_cons.mp member).resolve_left same)
  | finish worker index answer runs => exact sound.finish lawful worker index answer runs

private theorem sound_reaches (lawful : Implements machine apply encode Survives Ready Entered Seen)
    (values : Key → Value) (ops : List Op)
    (survive : ∀ count key, Survives (valuesAfter apply values ops count key))
    (memories : Worker → Memory) (ready : ∀ worker, Ready (memories worker))
    (system : System Key Cell Memory Answer Worker)
    (reached : Reaches machine ops (.initial (fun key => encode (values key)) memories) system) :
    Sound machine apply encode Ready Entered Seen values ops system := by
  induction reached with
  | refl => exact sound_initial lawful values ops memories ready
  | step system next _ step ih => exact sound_step lawful values ops survive system next ih step

/-- Whatever the workers and the order of their steps, an answered request has the answer that
one worker gives it that serves the requests in order. -/
theorem answers_eq_serveAll (lawful : Implements machine apply encode Survives Ready Entered Seen)
    (values : Key → Value) (ops : List Op)
    (survive : ∀ count key, Survives (valuesAfter apply values ops count key))
    (memories : Worker → Memory) (ready : ∀ worker, Ready (memories worker)) (memory : Memory)
    (memoryReady : Ready memory) (system : System Key Cell Memory Answer Worker)
    (reached : Reaches machine ops (.initial (fun key => encode (values key)) memories) system)
    (index : Nat) (answer : Answer) (answered : system.answers index = some answer) :
    (machine.serveAll memory (fun key => encode (values key)) ops)[index]? = some answer := by
  have sound := sound_reaches lawful values ops survive memories ready system reached
  obtain ⟨op, request, answerIs⟩ := sound.answered index answer answered
  rw [serveAll_answers lawful ops values survive memory memoryReady index, request, answerIs]
  rfl

end

end VgiWorker.SharedCells
