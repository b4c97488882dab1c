import VgiWorker.Data.Result
import VgiWorker.Storage.CfDo

/-!
# What the client relies on

The durable object applies each request atomically, in order and at most once for
an attempt id, on the tables of the unified schema; its scans page through the
rows of a namespace.
-/

set_option autoImplicit false

namespace VgiWorker.Storage

open Js

namespace DurableObject

variable (object : DurableObject)

/-- A request with its answer and the tables after it. -/
def Answers {Data : Type} (tables : object.State → Tables Text) (state : object.State)
    (request : Request Data) (data : Data) (expected : Tables Text) : Prop :=
  ∃ after, object.handle state request = (after, .ok data) ∧ (tables after).SameRows expected

/-- The requests of one scan. Each page but the last ends at the row after which the next
one starts, and every state on the way is `Settled`. -/
inductive Serves (request : Option Text → Request Page) (Settled : object.State → Prop) :
    object.State → Option Text → List (List (Text × Text)) → Prop where
  | last {state after : object.State} {afterKey : Option Text} {rows : List (Text × Text)}
      (answer : object.handle state (request afterKey) =
        (after, .ok { rows := some rows, nextAfter := none }))
      (settled : Settled after) :
      Serves request Settled state afterKey [rows]
  | more {state after : object.State} {afterKey : Option Text} {rows : List (Text × Text)}
      {row : Text × Text} {pages : List (List (Text × Text))}
      (final : rows.getLast? = some row)
      (answer : object.handle state (request afterKey) =
        (after, .ok { rows := some rows, nextAfter := some row.1 }))
      (settled : Settled after)
      (rest : Serves request Settled after (some row.1) pages) :
      Serves request Settled state afterKey (rows :: pages)

/-- `tables` is what a state stores, `seen` the attempt ids it has applied and `pages` how it
splits the rows of a namespace. -/
structure Contract where
  tables : object.State → Tables Text
  seen : object.State → Text → Prop
  pages : object.State → Text → Text → List (List (Text × Text))
  initialTables : tables object.initial = Tables.empty
  initialSeen : ∀ id, ¬ seen object.initial id
  seenAfter : ∀ {Data : Type} (state : object.State) (request : Request Data) (id : Text),
    seen (object.handle state request).1 id → seen state id ∨ request.attemptId? = some id
  repeated : ∀ {Data : Type} (state : object.State) (request : Request Data),
    object.handle (object.handle state request).1 request = object.handle state request
  statePutMany : ∀ state scopeId ns items id, ¬ seen state id →
    object.Answers tables state (.statePutMany scopeId ns items id) ()
      (items.foldl (fun after item => after.put scopeId ns item.1 item.2) (tables state))
  stateGetMany : ∀ state scopeId ns keys,
    object.Answers tables state (.stateGetMany scopeId ns keys)
      (some (keys.map ((tables state).value? scopeId ns))) (tables state)
  stateAppend : ∀ state scopeId ns key item id, ¬ seen state id →
    ∃ ordinal, (tables state).logSequence < ordinal ∧
      object.Answers tables state (.stateAppend scopeId ns key item id) ordinal
        ((tables state).append ordinal scopeId ns key item)
  stateLogScan : ∀ state scopeId ns key afterId,
    object.Answers tables state (.stateLogScan scopeId ns key afterId none)
      (some ((tables state).logAfter scopeId ns key afterId)) (tables state)
  stateLogScanLimited : ∀ state scopeId ns key afterId (limit : Int), 0 < limit →
    object.Answers tables state (.stateLogScan scopeId ns key afterId (some limit))
      (some (((tables state).logAfter scopeId ns key afterId).take limit.toNat)) (tables state)
  executionClear : ∀ state scopeId id, ¬ seen state id →
    object.Answers tables state (.executionClear scopeId id) ((tables state).clearCount scopeId)
      ((tables state).clear scopeId)
  queuePush : ∀ state executionId items id, ¬ seen state id →
    object.Answers tables state (.queuePush executionId items id) items.length
      ((tables state).push executionId items)
  queuePop : ∀ state executionId id, ¬ seen state id →
    object.Answers tables state (.queuePop executionId id) ((tables state).front? executionId)
      ((tables state).pop executionId)
  queueClear : ∀ state executionId id, ¬ seen state id →
    object.Answers tables state (.queueClear executionId id)
      ((tables state).queueLength executionId) ((tables state).clearQueue executionId)
  pagesRows : ∀ state scopeId ns,
    (pages state scopeId ns).flatten.Perm ((tables state).entries scopeId ns)
  stateScan : ∀ state scopeId ns,
    object.Serves (fun afterKey => .stateScan scopeId ns afterKey)
      (fun after => (tables after).SameRows (tables state)) state none (pages state scopeId ns)
  stateDrain : ∀ state scopeId ns id, ¬ seen state id →
    object.Serves (fun afterKey => .stateDrain scopeId ns afterKey id)
      (fun after => (tables after).SameRows ((tables state).drain scopeId ns)) state none
      (pages state scopeId ns)

end DurableObject

/-! ## Posting -/

/-- One of the two attempts is answered. -/
def Surroundings.Arrives (around : Surroundings) : Prop :=
  ∀ page, (around.network page).1 = .answered ∨ (around.network page).2 = .answered

namespace FunctionStorageCfDo

variable {object : DurableObject} (contract : object.Contract)
include contract

/-- A retry changes nothing. -/
theorem post_eq {Data : Type} (network : Delivery × Delivery) (request : Request Data)
    (state : object.State) (arrives : network.1 = .answered ∨ network.2 = .answered) :
    post network request state = ((object.handle state request).1,
      readReply request.endpoint (object.handle state request).2) := by
  obtain ⟨first, second⟩ := network
  cases first with
  | answered => rfl
  | requestLost =>
      cases second with
      | answered => rfl
      | requestLost | answerLost => rcases arrives with missed | missed <;> cases missed
  | answerLost =>
      cases second with
      | answered => simp only [post, attempts, contract.repeated state request]
      | requestLost | answerLost => rcases arrives with missed | missed <;> cases missed

theorem single_answers {Data : Type} {state : object.State} {request : Request Data} {data : Data}
    {expected : Tables Text} (around : Surroundings) (arrives : around.Arrives)
    (answers : object.Answers contract.tables state request data expected)
    (read : Data → Except StorageError Answer) :
    ∃ after, single around request read state = (after, read data) ∧
      (contract.tables after).SameRows expected ∧
      ∀ id, contract.seen after id → contract.seen state id ∨ request.attemptId? = some id := by
  obtain ⟨after, handled, sameRows⟩ := answers
  have posted := post_eq contract (around.network 0) request state (arrives 0)
  rw [handled] at posted
  refine ⟨after, ?_, sameRows, ?_⟩
  · rw [single, posted]
    rfl
  · intro id seen
    have later := contract.seenAfter state request id
    rw [handled] at later
    exact later seen

end FunctionStorageCfDo

/-! ## Pages -/

/-- The rows of the pages up to the first that ends at the empty key. -/
def readPages : List (List (Text × Text)) → List (Text × Text)
  | [] => []
  | rows :: rest => if rows.getLast?.map (·.1) = some [] then rows else rows ++ readPages rest

/-- No rows come after a page that ends at the empty key. -/
def PagesContinue : List (List (Text × Text)) → Prop
  | [] => True
  | rows :: rest =>
      (rows.getLast?.map (·.1) = some [] → rest.flatten = []) ∧ PagesContinue rest

private theorem pagesContinue_of_flatten_nil (pages : List (List (Text × Text)))
    (empty : pages.flatten = []) : PagesContinue pages := by
  induction pages with
  | nil => trivial
  | cons rows rest ih =>
      rw [List.flatten_cons, List.append_eq_nil_iff] at empty
      exact ⟨fun _ => empty.2, ih empty.2⟩

theorem readPages_eq_flatten_iff (pages : List (List (Text × Text))) :
    readPages pages = pages.flatten ↔ PagesContinue pages := by
  induction pages with
  | nil => simp [readPages, PagesContinue]
  | cons rows rest ih =>
      by_cases stops : rows.getLast?.map (·.1) = some []
      · have stopped : readPages (rows :: rest) = rows := if_pos stops
        rw [stopped, List.flatten_cons, List.self_eq_append_right]
        exact ⟨fun empty => ⟨fun _ => empty, pagesContinue_of_flatten_nil rest empty⟩,
          fun both => both.1 stops⟩
      · simp [readPages, stops, PagesContinue, ih]

theorem readPages_isPrefix (pages : List (List (Text × Text))) :
    readPages pages <+: pages.flatten := by
  induction pages with
  | nil => exact List.prefix_refl _
  | cons rows rest ih =>
      simp only [readPages, List.flatten_cons]
      split
      · exact List.prefix_append _ _
      · exact (List.prefix_append_right_inj rows).mpr ih

namespace FunctionStorageCfDo

variable {object : DurableObject} (contract : object.Contract)
include contract

/-- The loop reads the pages up to the first that ends at the empty key. -/
theorem pagesFrom_serves (around : Surroundings) (arrives : around.Arrives)
    (request : Option Text → Request Page) (Settled : object.State → Prop)
    (decode : Text × Text → Bytes × Bytes) {pages : List (List (Text × Text))}
    {state : object.State} {afterKey : Option Text}
    (serves : object.Serves request Settled state afterKey pages)
    (decodes : ∀ row ∈ pages.flatten, readRow row = .ok (decode row)) :
    ∀ (bound page : Nat) (rows : List (Bytes × Bytes)), pages.length ≤ bound →
      ∃ after, pagesFrom around request bound page afterKey rows state =
          (after, .ok (rows ++ (readPages pages).map decode)) ∧ Settled after ∧
        ∀ id, contract.seen after id →
          contract.seen state id ∨ ∃ key, (request key).attemptId? = some id := by
  induction serves with
  | @last state after afterKey rows answer settled =>
      intro bound page earlier enough
      cases bound with
      | zero => simp at enough
      | succ bound =>
          have posted := post_eq contract (around.network page) (request afterKey) state (arrives page)
          have read := except_mapM_eq readRow decode rows fun row member =>
            decodes row (by simpa using member)
          refine ⟨after, ?_, settled, ?_⟩
          · rw [answer] at posted
            simp [pagesFrom, posted, readReply, read, readPages]
          · intro id seen
            have later := contract.seenAfter state (request afterKey) id
            rw [answer] at later
            exact (later seen).imp_right fun own => ⟨afterKey, own⟩
  | @more state after afterKey rows row pages final answer settled rest ih =>
      intro bound page earlier enough
      cases bound with
      | zero => simp at enough
      | succ bound =>
          have posted := post_eq contract (around.network page) (request afterKey) state (arrives page)
          rw [answer] at posted
          have read := except_mapM_eq readRow decode rows fun row member =>
            decodes row (by simp [member])
          have now : ∀ id, contract.seen after id →
              contract.seen state id ∨ ∃ key, (request key).attemptId? = some id := by
            intro id seen
            have later := contract.seenAfter state (request afterKey) id
            rw [answer] at later
            exact (later seen).imp_right fun own => ⟨afterKey, own⟩
          by_cases stops : row.1 = []
          · refine ⟨after, ?_, settled, now⟩
            simp [pagesFrom, posted, readReply, read, readPages, final, stops]
          · obtain ⟨last, reads, lastSettled, lastSeen⟩ := ih
              (fun other member => decodes other (by simp [List.mem_flatten.mp member]))
              bound (page + 1) (earlier ++ rows.map decode) (by simpa using enough)
            refine ⟨last, ?_, lastSettled, ?_⟩
            · cases key : row.1 with
              | nil => exact absurd key stops
              | cons unit units =>
                  rw [key] at posted reads
                  simp [pagesFrom, posted, readReply, read, readPages, final, key, reads]
            · intro id seen
              rcases lastSeen id seen with before | own
              · exact now id before
              · exact .inr own

end FunctionStorageCfDo

end VgiWorker.Storage
