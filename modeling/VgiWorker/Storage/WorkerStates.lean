import VgiWorker.Storage.Tables

/-!
# Worker state rows

What the statements do to the rows of one namespace, and which operations leave
the worker state of an execution alone.
-/

set_option autoImplicit false

namespace VgiWorker.Storage

open Js

namespace Tables

variable {Blob : Type} [DecidableEq Blob] (tables : Tables Blob) (scopeId ns key value : Blob)

theorem entries_put : (tables.put scopeId ns key value).entries scopeId ns =
    (tables.entries scopeId ns).filter (fun row => row.1 ≠ key) ++ [(key, value)] := by
  have kept : ∀ rows : List (StateRow Blob),
      ((rows.filter fun row => ¬row.At scopeId ns key).filter
          fun row => row.InNamespace scopeId ns).map (fun row => (row.key, row.value)) =
        ((rows.filter fun row => row.InNamespace scopeId ns).map
          fun row => (row.key, row.value)).filter fun row => row.1 ≠ key := by
    intro rows
    induction rows with
    | nil => rfl
    | cons row rest ih =>
        by_cases within : row.InNamespace scopeId ns
        · by_cases named : row.key = key
          · simpa [StateRow.At, StateRow.InNamespace, within.1, within.2, named] using ih
          · simpa [StateRow.At, StateRow.InNamespace, within.1, within.2, named] using ih
        · have outside : ¬row.At scopeId ns key := fun here => within ⟨here.1, here.2.1⟩
          simp only [List.filter_cons, outside, not_false_eq_true, decide_true, if_true, within,
            decide_false, Bool.false_eq_true, if_false]
          exact ih
  simp only [entries, put, List.filter_append, List.map_append, kept]
  simp

theorem mem_entries_put (held : Blob) (content : Blob) :
    (held, content) ∈ (tables.put scopeId ns key value).entries scopeId ns ↔
      held ≠ key ∧ (held, content) ∈ tables.entries scopeId ns ∨ held = key ∧ content = value := by
  rw [entries_put]
  simp [and_comm]

theorem nodup_entries_put (nodup : ((tables.entries scopeId ns).map Prod.fst).Nodup) :
    (((tables.put scopeId ns key value).entries scopeId ns).map Prod.fst).Nodup := by
  rw [entries_put, List.map_append, List.nodup_append]
  refine ⟨nodup.sublist (List.filter_sublist.map Prod.fst), by simp, ?_⟩
  intro held member other here same
  obtain ⟨row, inside, rfl⟩ := List.mem_map.mp member
  have different := (List.mem_filter.mp inside).2
  simp only [List.map_cons, List.map_nil, List.mem_singleton] at here
  simp [same, here] at different

theorem entries_put_other (scope space : Blob) (different : ¬(scope = scopeId ∧ space = ns)) :
    (tables.put scope space key value).entries scopeId ns = tables.entries scopeId ns := by
  have outside (row : StateRow Blob) (at' : row.At scope space key) :
      ¬row.InNamespace scopeId ns := fun within =>
    different ⟨at'.1.symm.trans within.1, at'.2.1.symm.trans within.2⟩
  have kept : ∀ rows : List (StateRow Blob),
      (rows.filter fun row => ¬row.At scope space key).filter
          (fun row => row.InNamespace scopeId ns) =
        rows.filter fun row => row.InNamespace scopeId ns := by
    intro rows
    rw [List.filter_filter]
    refine List.filter_congr fun row _ => ?_
    by_cases replaced : row.At scope space key
    · simp [outside row replaced]
    · simp [replaced]
  simp only [entries, put, List.filter_append, List.map_append, kept]
  simp [StateRow.InNamespace, different]

theorem entries_drain_other (scope space : Blob) (different : ¬(scope = scopeId ∧ space = ns)) :
    (tables.drain scope space).entries scopeId ns = tables.entries scopeId ns := by
  simp only [entries, drain, List.filter_filter]
  congr 1
  refine List.filter_congr fun row _ => ?_
  by_cases within : row.InNamespace scopeId ns
  · have kept : ¬row.InNamespace scope space := fun here =>
      different ⟨here.1.symm.trans within.1, here.2.symm.trans within.2⟩
    simp [within, kept]
  · simp [within]

theorem entries_clear_other (scope : Blob) (different : scope ≠ scopeId) :
    (tables.clear scope).entries scopeId ns = tables.entries scopeId ns := by
  simp only [entries, clear, List.filter_filter]
  congr 1
  refine List.filter_congr fun row _ => ?_
  by_cases within : row.InNamespace scopeId ns
  · simp [within, Ne.symm different]
  · simp [within]

end Tables

/-- An operation that is not about the worker state of an execution. -/
def Operation.SparesWorkers (executionId : Bytes) : Operation → Prop
  | .workerPut scope _ _ | .workerCollect scope | .executionClear scope => scope ≠ executionId
  | .statePut scope ns _ _ => ¬(scope = executionId ∧ ns = nsWorker)
  | _ => True

theorem entries_perform (db : SqliteDb) (executionId : Bytes) (operation : Operation)
    (spares : operation.SparesWorkers executionId) :
    (FunctionStorageSqlite.perform db operation).1.entries executionId nsWorker =
      db.entries executionId nsWorker := by
  cases operation with
  | workerPut scope worker state =>
      have other : ¬(scope = executionId ∧ nsWorker = nsWorker) := fun same => spares same.1
      simp only [FunctionStorageSqlite.perform, FunctionStorageSqlite.workerPut]
      cases workerStateKey worker with
      | error fault => rfl
      | ok key => exact Tables.entries_put_other db executionId nsWorker key state scope nsWorker other
  | workerCollect scope =>
      exact Tables.entries_drain_other db executionId nsWorker scope nsWorker fun same =>
        spares same.1
  | executionClear scope => exact Tables.entries_clear_other db executionId nsWorker scope spares
  | statePut scope ns key value =>
      exact Tables.entries_put_other db executionId nsWorker key value scope ns spares
  | _ => rfl

end VgiWorker.Storage
