import VgiWorker.Storage.Tables

/-!
# Tables under other names

The same rows with every blob renamed by an injective encoding and every log id
by a list of pairs. The statements keep the relation, and read renamed rows.
-/

set_option autoImplicit false

namespace VgiWorker.Storage

variable {Blob Name : Type}

def StateRow.map (encode : Blob → Name) (row : StateRow Blob) : StateRow Name :=
  { scopeId := encode row.scopeId, ns := encode row.ns, key := encode row.key,
    value := encode row.value }

def QueueRow.map (encode : Blob → Name) (row : QueueRow Blob) : QueueRow Name :=
  { executionId := encode row.executionId, workItem := encode row.workItem }

/-- One log row under the other names. -/
structure LogRow.Renames (encode : Blob → Name) (issued : List (Int × Int)) (row : LogRow Blob)
    (renamed : LogRow Name) : Prop where
  id : (row.id, renamed.id) ∈ issued
  scopeId : renamed.scopeId = encode row.scopeId
  ns : renamed.ns = encode row.ns
  key : renamed.key = encode row.key
  value : renamed.value = encode row.value

/-- `issued` pairs the log ids that the two sides gave out. -/
structure Tables.Renames (encode : Blob → Name) (issued : List (Int × Int)) (tables : Tables Blob)
    (renamed : Tables Name) : Prop where
  functionState : renamed.functionState.Perm (tables.functionState.map (StateRow.map encode))
  functionStateLog :
    List.Forall₂ (LogRow.Renames encode issued) tables.functionStateLog renamed.functionStateLog
  workQueue : renamed.workQueue = tables.workQueue.map (QueueRow.map encode)

/-- At most one row with a primary key. -/
def Tables.Keyed (tables : Tables Blob) : Prop :=
  ∀ left ∈ tables.functionState, ∀ right ∈ tables.functionState,
    left.At right.scopeId right.ns right.key → left = right

/-- A cursor of each side, with the same rows after it. -/
def SameCursor (issued : List (Int × Int)) (left right : Int) : Prop :=
  ∀ pair ∈ issued, left < pair.1 ↔ right < pair.2

/-! ## Primary keys -/

namespace Tables

theorem keyed_empty : Keyed (empty : Tables Blob) :=
  fun _ member => absurd member List.not_mem_nil

private theorem keyed_filter (tables : Tables Blob) (keep : StateRow Blob → Bool)
    (keyed : tables.Keyed) :
    ∀ left ∈ tables.functionState.filter keep, ∀ right ∈ tables.functionState.filter keep,
      left.At right.scopeId right.ns right.key → left = right :=
  fun left leftMember right rightMember =>
    keyed left (List.mem_of_mem_filter leftMember) right (List.mem_of_mem_filter rightMember)

variable [DecidableEq Blob]

theorem Keyed.put {tables : Tables Blob} (keyed : tables.Keyed) (scopeId ns key value : Blob) :
    (tables.put scopeId ns key value).Keyed := by
  intro left leftMember right rightMember same
  obtain ⟨sameScope, sameNs, sameKey⟩ := same
  simp only [Tables.put, List.mem_append, List.mem_filter, List.mem_singleton,
    decide_eq_true_eq] at leftMember rightMember
  rcases leftMember with ⟨leftMember, leftOther⟩ | rfl
  · rcases rightMember with ⟨rightMember, _⟩ | rfl
    · exact keyed left leftMember right rightMember ⟨sameScope, sameNs, sameKey⟩
    · exact absurd ⟨sameScope, sameNs, sameKey⟩ leftOther
  · rcases rightMember with ⟨_, rightOther⟩ | rfl
    · exact absurd ⟨sameScope.symm, sameNs.symm, sameKey.symm⟩ rightOther
    · rfl

theorem Keyed.drain {tables : Tables Blob} (keyed : tables.Keyed) (scopeId ns : Blob) :
    (tables.drain scopeId ns).Keyed :=
  keyed_filter tables _ keyed

theorem Keyed.clear {tables : Tables Blob} (keyed : tables.Keyed) (scopeId : Blob) :
    (tables.clear scopeId).Keyed :=
  keyed_filter tables _ keyed

end Tables

/-! ## Statements on renamed rows -/

namespace Tables.Renames

variable {encode : Blob → Name} {issued : List (Int × Int)} {tables : Tables Blob}
  {renamed : Tables Name}

theorem empty : Renames encode issued Tables.empty Tables.empty :=
  ⟨.refl _, .nil, rfl⟩

theorem sameRows {other : Tables Name} (renames : Renames encode issued tables renamed)
    (same : other.SameRows renamed) : Renames encode issued tables other :=
  ⟨same.functionState.trans renames.functionState, same.functionStateLog ▸ renames.functionStateLog,
    same.workQueue.trans renames.workQueue⟩

theorem issuedAppend (more : List (Int × Int)) (renames : Renames encode issued tables renamed) :
    Renames encode (issued ++ more) tables renamed := by
  refine ⟨renames.functionState, renames.functionStateLog.imp ?_, renames.workQueue⟩
  intro row other names
  exact ⟨List.mem_append_left _ names.id, names.scopeId, names.ns, names.key, names.value⟩

/-- Rows that both sides keep. -/
private theorem filter_renamed (keep : StateRow Blob → Prop) (keepRenamed : StateRow Name → Prop)
    [DecidablePred keep] [DecidablePred keepRenamed]
    (agree : ∀ row, keepRenamed (row.map encode) ↔ keep row)
    (renames : Renames encode issued tables renamed) :
    (renamed.functionState.filter fun row => keepRenamed row).Perm
      ((tables.functionState.filter fun row => keep row).map (StateRow.map encode)) := by
  have filtered := renames.functionState.filter fun row => keepRenamed row
  have same : ((fun row => decide (keepRenamed row)) ∘ StateRow.map encode) =
      fun row => decide (keep row) := by
    funext row
    simp [agree row]
  rwa [List.filter_map, same] at filtered

private theorem log_filter (keep : LogRow Blob → Bool) (keepRenamed : LogRow Name → Bool)
    (rows : List (LogRow Blob)) (renamedRows : List (LogRow Name))
    (agree : ∀ row other, LogRow.Renames encode issued row other → keepRenamed other = keep row)
    (related : List.Forall₂ (LogRow.Renames encode issued) rows renamedRows) :
    List.Forall₂ (LogRow.Renames encode issued) (rows.filter keep)
      (renamedRows.filter keepRenamed) := by
  induction related with
  | nil => exact .nil
  | @cons row other rows others names _ ih =>
      rw [List.filter_cons, List.filter_cons, agree row other names]
      cases keep row with
      | true => exact .cons names ih
      | false => exact ih

theorem append (renames : Renames encode issued tables renamed) (scopeId ns key value : Blob)
    (id renamedId : Int) :
    Renames encode (issued ++ [(id, renamedId)]) (tables.append id scopeId ns key value)
      (renamed.append renamedId (encode scopeId) (encode ns) (encode key) (encode value)) := by
  have more := renames.issuedAppend [(id, renamedId)]
  refine ⟨more.functionState, ?_, more.workQueue⟩
  exact List.rel_append more.functionStateLog
    (.cons ⟨List.mem_append_right _ List.mem_cons_self, rfl, rfl, rfl, rfl⟩ .nil)

theorem push (renames : Renames encode issued tables renamed) (executionId : Blob)
    (items : List Blob) :
    Renames encode issued (tables.push executionId items)
      (renamed.push (encode executionId) (items.map encode)) := by
  refine ⟨renames.functionState, renames.functionStateLog, ?_⟩
  simp [Tables.push, renames.workQueue, QueueRow.map]

section Injective

variable (injective : Function.Injective encode)
include injective

private theorem map_at (row : StateRow Blob) (scopeId ns key : Blob) :
    (row.map encode).At (encode scopeId) (encode ns) (encode key) ↔ row.At scopeId ns key := by
  simp [StateRow.map, StateRow.At, injective.eq_iff]

private theorem map_inNamespace (row : StateRow Blob) (scopeId ns : Blob) :
    (row.map encode).InNamespace (encode scopeId) (encode ns) ↔ row.InNamespace scopeId ns := by
  simp [StateRow.map, StateRow.InNamespace, injective.eq_iff]

private theorem map_scope (row : StateRow Blob) (scopeId : Blob) :
    (row.map encode).scopeId = encode scopeId ↔ row.scopeId = scopeId := by
  simp [StateRow.map, injective.eq_iff]

variable [DecidableEq Blob] [DecidableEq Name]

private theorem queue_map (executionId : Blob) :
    (fun row : QueueRow Name => decide (row.executionId = encode executionId)) ∘
      QueueRow.map encode = fun row => decide (row.executionId = executionId) := by
  funext row
  simp [QueueRow.map, injective.eq_iff]

theorem put (renames : Renames encode issued tables renamed) (scopeId ns key value : Blob) :
    Renames encode issued (tables.put scopeId ns key value)
      (renamed.put (encode scopeId) (encode ns) (encode key) (encode value)) := by
  refine ⟨?_, renames.functionStateLog, renames.workQueue⟩
  have others := renames.filter_renamed (fun row => ¬ row.At scopeId ns key)
    (fun row => ¬ row.At (encode scopeId) (encode ns) (encode key))
    fun row => not_congr (map_at injective row scopeId ns key)
  simpa [Tables.put, StateRow.map] using others.append_right _

theorem drain (renames : Renames encode issued tables renamed) (scopeId ns : Blob) :
    Renames encode issued (tables.drain scopeId ns)
      (renamed.drain (encode scopeId) (encode ns)) :=
  ⟨renames.filter_renamed (fun row => ¬ row.InNamespace scopeId ns)
    (fun row => ¬ row.InNamespace (encode scopeId) (encode ns))
    fun row => not_congr (map_inNamespace injective row scopeId ns),
    renames.functionStateLog, renames.workQueue⟩

theorem clear (renames : Renames encode issued tables renamed) (scopeId : Blob) :
    Renames encode issued (tables.clear scopeId) (renamed.clear (encode scopeId)) := by
  refine ⟨?_, ?_, renames.workQueue⟩
  · exact renames.filter_renamed (fun row => row.scopeId ≠ scopeId)
      (fun row => row.scopeId ≠ encode scopeId) fun row => not_congr (map_scope injective row scopeId)
  · refine log_filter _ _ _ _ ?_ renames.functionStateLog
    intro row other names
    simp [names.scopeId, injective.eq_iff]

theorem clearCount (renames : Renames encode issued tables renamed) (scopeId : Blob) :
    renamed.clearCount (encode scopeId) = tables.clearCount scopeId := by
  have state := (renames.filter_renamed (fun row => row.scopeId = scopeId)
    (fun row => row.scopeId = encode scopeId) fun row => map_scope injective row scopeId).length_eq
  have log := (log_filter (fun row => decide (row.scopeId = scopeId))
    (fun row => decide (row.scopeId = encode scopeId)) _ _
    (fun row other names => by simp [names.scopeId, injective.eq_iff])
    renames.functionStateLog).length_eq
  rw [List.length_map] at state
  simp only [Tables.clearCount, state, log]

theorem pop (renames : Renames encode issued tables renamed) (executionId : Blob) :
    Renames encode issued (tables.pop executionId) (renamed.pop (encode executionId)) := by
  refine ⟨renames.functionState, renames.functionStateLog, ?_⟩
  have erased : ∀ rows : List (QueueRow Blob),
      (rows.map (QueueRow.map encode)).eraseP (fun row => row.executionId = encode executionId) =
        (rows.eraseP fun row => row.executionId = executionId).map (QueueRow.map encode) := by
    intro rows
    rw [List.eraseP_map, queue_map injective executionId]
  simpa [Tables.pop, renames.workQueue] using erased tables.workQueue

theorem front? (renames : Renames encode issued tables renamed) (executionId : Blob) :
    renamed.front? (encode executionId) = (tables.front? executionId).map encode := by
  simp only [Tables.front?, renames.workQueue, List.find?_map, queue_map injective,
    Option.map_map]
  rfl

theorem clearQueue (renames : Renames encode issued tables renamed) (executionId : Blob) :
    Renames encode issued (tables.clearQueue executionId)
      (renamed.clearQueue (encode executionId)) := by
  refine ⟨renames.functionState, renames.functionStateLog, ?_⟩
  have kept : (fun row : QueueRow Name => decide (row.executionId ≠ encode executionId)) ∘
      QueueRow.map encode = fun row => decide (row.executionId ≠ executionId) := by
    funext row
    simp [QueueRow.map, injective.eq_iff]
  simp only [Tables.clearQueue, renames.workQueue, List.filter_map, kept]

theorem queueLength (renames : Renames encode issued tables renamed) (executionId : Blob) :
    renamed.queueLength (encode executionId) = tables.queueLength executionId := by
  simp only [Tables.queueLength, renames.workQueue, List.filter_map, queue_map injective,
    List.length_map]

theorem entries (renames : Renames encode issued tables renamed) (scopeId ns : Blob) :
    (renamed.entries (encode scopeId) (encode ns)).Perm
      ((tables.entries scopeId ns).map fun row => (encode row.1, encode row.2)) := by
  have kept := renames.filter_renamed (fun row => row.InNamespace scopeId ns)
    (fun row => row.InNamespace (encode scopeId) (encode ns))
    fun row => map_inNamespace injective row scopeId ns
  have mapped := kept.map fun row => (row.key, row.value)
  simpa [Tables.entries, List.map_map, Function.comp_def, StateRow.map] using mapped

theorem logAfter (renames : Renames encode issued tables renamed) (scopeId ns key : Blob)
    (afterId renamedAfter : Int) (cursors : SameCursor issued afterId renamedAfter) :
    List.Forall₂ (fun row other => (row.1, other.1) ∈ issued ∧ other.2 = encode row.2)
      (tables.logAfter scopeId ns key afterId)
      (renamed.logAfter (encode scopeId) (encode ns) (encode key) renamedAfter) := by
  have kept := log_filter (fun row => decide (row.After scopeId ns key afterId))
    (fun row => decide (row.After (encode scopeId) (encode ns) (encode key) renamedAfter)) _ _
    (fun row other names => by
      have order := cursors (row.id, other.id) names.id
      simp only at order
      simp [LogRow.After, names.scopeId, names.ns, names.key, injective.eq_iff, order])
    renames.functionStateLog
  refine List.forall₂_map_left_iff.mpr (List.forall₂_map_right_iff.mpr (kept.imp ?_))
  intro row other names
  exact ⟨names.id, names.value⟩

theorem value? (renames : Renames encode issued tables renamed) (keyed : tables.Keyed)
    (scopeId ns key : Blob) :
    renamed.value? (encode scopeId) (encode ns) (encode key) =
      (tables.value? scopeId ns key).map encode := by
  cases found : tables.functionState.find? fun row => row.At scopeId ns key with
  | none =>
      have absent : renamed.functionState.find?
          (fun row => row.At (encode scopeId) (encode ns) (encode key)) = none := by
        rw [List.find?_eq_none] at found ⊢
        intro row member there
        obtain ⟨source, inside, rfl⟩ := List.mem_map.mp (renames.functionState.mem_iff.mp member)
        exact found source inside (by simpa [map_at injective] using there)
      simp only [Tables.value?, found, absent, Option.map_none]
  | some row =>
      have inside := List.mem_of_find?_eq_some found
      have rowAt : row.At scopeId ns key := by simpa using List.find?_some found
      cases foundRenamed : renamed.functionState.find?
          (fun row => row.At (encode scopeId) (encode ns) (encode key)) with
      | none =>
          rw [List.find?_eq_none] at foundRenamed
          have member := renames.functionState.mem_iff.mpr (List.mem_map_of_mem inside)
          exact absurd (by simpa using (map_at injective row scopeId ns key).mpr rowAt)
            (foundRenamed _ member)
      | some other =>
          have otherMember := List.mem_of_find?_eq_some foundRenamed
          obtain ⟨source, sourceInside, rfl⟩ :=
            List.mem_map.mp (renames.functionState.mem_iff.mp otherMember)
          have sourceAt : source.At scopeId ns key := by
            simpa [map_at injective] using List.find?_some foundRenamed
          have same : source = row := by
            apply keyed source sourceInside row inside
            rw [rowAt.1, rowAt.2.1, rowAt.2.2]
            exact sourceAt
          simp only [Tables.value?, found, foundRenamed, same, StateRow.map, Option.map_some]

end Injective

end Tables.Renames

end VgiWorker.Storage
