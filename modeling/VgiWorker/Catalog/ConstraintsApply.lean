import VgiWorker.Catalog.Constraints
import VgiWorker.Data.CheckedEffects

/-!
# Constraint changes through the not-null hooks

The default `tableConstraintsApply` of a catalog that implements `tableNotNullSet`
or `tableNotNullDrop`. The codec of the records is a parameter.
-/

set_option autoImplicit false

namespace VgiWorker.Catalog.ConstraintsApply

open VgiWorker.Js
open VgiWorker.Catalog.Constraints (Codecs ConstraintDefinition ConstraintRecordView
  readConstraintRecord)

/-- A `VgiError` with its code; an error of another kind has none. -/
structure Fault where
  code : Option Text
  message : Text

def vgiError (message : Text) (code : String) : Fault :=
  ⟨some (text code), message⟩

structure ConstraintChange where
  operation : Text
  ref : Option Bytes
  definition : Option Bytes

/-- `decodeASD` at the schemas of the records. -/
structure RecordDecoders extends Codecs Fault where
  constraintChange : Bytes → Except Fault ConstraintChange

structure TableInfo where
  definitionRevision : Option Bytes
  constraints : Option (List Bytes)

/-- A table of the catalog by its schema path and name. -/
structure Target where
  schemaPath : List Text
  name : Text

inductive NotNullCall where
  | set (columnPath : List Text)
  | drop (columnPath : List Text)

/-- The methods of a catalog that the default calls. A hook call is atomic: it throws, or it gives
the state that it leaves. -/
structure Hooks (State : Type) where
  tableGet : State → Target → Except Fault (Option TableInfo)
  tableNotNullSet : State → Target → List Text → Except Fault State
  tableNotNullDrop : State → Target → List Text → Except Fault State

/-- A catalog, with the hooks it overrides. -/
structure LegacyCatalog (State : Type) extends Hooks State where
  implementsLegacyNotNull : Bool

structure ConstraintsApplyRequest where
  table : Bytes
  expectedRevision : Bytes
  changes : List Bytes

structure ConstraintSnapshot where
  table : Bytes
  definitionRevision : Bytes
  constraints : List Bytes

section

variable (decode : RecordDecoders)

def notRouted : Fault :=
  vgiError (text "catalog_table_constraints_apply: only ADD/DROP of a top-level NOT_NULL routes " ++
    text "to tableNotNullSet/tableNotNullDrop; implement tableConstraintsApply") "UNIMPLEMENTED"

/-- The hook call of an ADD with its definition. -/
def addCall (definition : ConstraintDefinition) : Except Fault NotNullCall :=
  match definition.columnPaths with
  | [[column]] =>
      if definition.kind = text "NOT_NULL" then .ok (.set [column]) else .error notRouted
  | _ => .error notRouted

/-- The hook call of a DROP of the constraint of this id. -/
def dropCall (records : List ConstraintRecordView) (id : Text) : Except Fault NotNullCall :=
  match records.find? fun record => record.id = id with
  | some record =>
      match record.columns with
      | [column] :: _ =>
          if record.kind = text "NOT_NULL" then .ok (.drop [column]) else .error notRouted
      | _ => .error notRouted
  | none => .error notRouted

/-- The hook call that one change asks for. -/
def routeChange (records : List ConstraintRecordView) (bytes : Bytes) :
    Except Fault NotNullCall := do
  let change ← decode.constraintChange bytes
  let added := if change.operation = text "ADD" then change.definition else none
  let dropped := if change.operation = text "DROP" then change.ref else none
  match added, dropped with
  | some definition, _ => do
      let definition ← decode.constraintDefinition.decode definition
      addCall definition
  | none, some ref => do
      let ref ← decode.catalogObjectRef.decode ref
      dropCall records ref.name
  | none, none => .error notRouted

variable {State : Type} (catalog : LegacyCatalog State)

def performCall (target : Target) (state : State) : NotNullCall → Except Fault State
  | .set columnPath => catalog.tableNotNullSet state target columnPath
  | .drop columnPath => catalog.tableNotNullDrop state target columnPath

/-- `tableGet`, which must find the table. -/
def readTable (target : Target) (state : State) : Except Fault TableInfo := do
  match ← catalog.tableGet state target with
  | some info => .ok info
  | none => .error (vgiError (text "Table '" ++ target.name ++ text "' not found") "NOT_FOUND")

/-- What is read and checked before the first change: the table, its revision, its records. -/
def prepare (request : ConstraintsApplyRequest) (state : State) :
    Except Fault (Target × TableInfo × List ConstraintRecordView) :=
  if ¬catalog.implementsLegacyNotNull then
    .error (vgiError (text "catalog_table_constraints_apply is not implemented by this catalog")
      "UNIMPLEMENTED")
  else do
    let ref ← decode.catalogObjectRef.decode request.table
    let target : Target := ⟨ref.schemaPath, ref.name⟩
    let before ← readTable catalog target state
    if before.definitionRevision ≠ some request.expectedRevision then
      .error (vgiError (text "Table '" ++ target.name ++
        text "': definition_revision changed; retry the statement") "FAILED_PRECONDITION")
    else do
      let records ← (before.constraints.getD []).mapM (readConstraintRecord decode.toCodecs)
      .ok (target, before, records)

def notRotated (target : Target) : Fault :=
  vgiError (text "Table '" ++ target.name ++
    text "': the NOT NULL change was applied but tableGet still serves the old " ++
    text "definition_revision; a catalog using tableNotNullSet/tableNotNullDrop must rotate " ++
    text "it (or implement tableConstraintsApply)") "INTERNAL"

/-- The snapshot behind the last change; the catalog must have rotated the revision. -/
def snapshot (request : ConstraintsApplyRequest) (target : Target) (before : TableInfo)
    (state : State) : Except Fault ConstraintSnapshot := do
  let after ← readTable catalog target state
  match after.definitionRevision with
  | some revision =>
      if before.definitionRevision = some revision then .error (notRotated target)
      else .ok ⟨request.table, revision, after.constraints.getD []⟩
  | none => .error (notRotated target)

/-- A finished request: the state it left, the hook calls it made, and its answer. -/
structure Applied (State : Type) where
  state : State
  calls : List NotNullCall
  answer : Except Fault ConstraintSnapshot

def tableConstraintsApply (request : ConstraintsApplyRequest) (state : State) : Applied State :=
  match prepare decode catalog request state with
  | .error fault => ⟨state, [], .error fault⟩
  | .ok (target, before, records) =>
      let run := interleaved (routeChange decode records) (performCall catalog target) state
        request.changes
      match run.outcome with
      | .error fault => ⟨run.state, run.calls, .error fault⟩
      | .ok () => ⟨run.state, run.calls, snapshot catalog request target before run.state⟩

/-! ## All or nothing -/

/-- Every change is applied and the snapshot has a new revision, or the request is refused before
any hook is called. -/
def Atomic (request : ConstraintsApplyRequest) (state : State) : Prop :=
  let run := tableConstraintsApply decode catalog request state
  (∃ snapshot target before records, run.answer = .ok snapshot ∧
    prepare decode catalog request state = .ok (target, before, records) ∧
    request.changes.mapM (routeChange decode records) = .ok run.calls ∧
    performAll (performCall catalog target) state run.calls = .ok run.state ∧
    snapshot.definitionRevision ≠ request.expectedRevision) ∨
  (∃ fault, run.answer = .error fault) ∧ run.calls = []

/-- The first change is refused, or every change is routed and performed and the table then serves
another revision. -/
def RoutedThroughout (request : ConstraintsApplyRequest) (state : State) (target : Target)
    (records : List ConstraintRecordView) : Prop :=
  (∀ change ∈ request.changes.head?, ∃ fault, routeChange decode records change = .error fault) ∨
  ∃ calls final info revision, request.changes.mapM (routeChange decode records) = .ok calls ∧
    performAll (performCall catalog target) state calls = .ok final ∧
    catalog.tableGet final target = .ok (some info) ∧ info.definitionRevision = some revision ∧
    revision ≠ request.expectedRevision

private theorem readTable_ok (target : Target) (state : State) (info : TableInfo) :
    readTable catalog target state = .ok info ↔ catalog.tableGet state target = .ok (some info) := by
  unfold readTable
  cases catalog.tableGet state target with
  | error fault => exact ⟨nofun, nofun⟩
  | ok found =>
      cases found with
      | none => exact ⟨nofun, nofun⟩
      | some held => exact ⟨fun same => by cases same; rfl, fun same => by cases same; rfl⟩

private theorem prepare_ok (request : ConstraintsApplyRequest) (state : State) (target : Target)
    (before : TableInfo) (records : List ConstraintRecordView)
    (prepared : prepare decode catalog request state = .ok (target, before, records)) :
    catalog.tableGet state target = .ok (some before) ∧
      before.definitionRevision = some request.expectedRevision := by
  unfold prepare at prepared
  split at prepared
  · cases prepared
  · obtain ⟨ref, _, prepared⟩ := except_bind_ok _ _ _ prepared
    obtain ⟨info, read, prepared⟩ := except_bind_ok _ _ _ prepared
    simp only at prepared
    split at prepared
    · cases prepared
    · rename_i current
      obtain ⟨views, _, prepared⟩ := except_bind_ok _ _ _ prepared
      cases prepared
      exact ⟨(readTable_ok catalog _ _ _).mp read, not_not.mp current⟩

private theorem snapshot_ok (request : ConstraintsApplyRequest) (target : Target)
    (before : TableInfo) (state : State) (answer : ConstraintSnapshot) :
    snapshot catalog request target before state = .ok answer ↔
      ∃ info revision, catalog.tableGet state target = .ok (some info) ∧
        info.definitionRevision = some revision ∧ before.definitionRevision ≠ some revision ∧
        answer = ⟨request.table, revision, info.constraints.getD []⟩ := by
  unfold snapshot
  constructor
  · intro made
    obtain ⟨info, read, made⟩ := except_bind_ok _ _ _ made
    refine ⟨info, ?_⟩
    cases held : info.definitionRevision with
    | none =>
        simp only [held] at made
        cases made
    | some revision =>
        simp only [held] at made
        split at made
        · cases made
        · rename_i rotated
          cases made
          exact ⟨revision, (readTable_ok catalog _ _ _).mp read, rfl, rotated, rfl⟩
  · rintro ⟨info, revision, read, held, rotated, rfl⟩
    rw [(readTable_ok catalog _ _ _).mpr read, except_ok_bind]
    simp only [held, if_neg rotated]

/-- Without a call the table keeps its revision, so there is no snapshot. -/
private theorem refused_answer (request : ConstraintsApplyRequest) (state : State)
    (target : Target) (before : TableInfo) (records : List ConstraintRecordView)
    (prepared : prepare decode catalog request state = .ok (target, before, records))
    (readBefore : catalog.tableGet state target = .ok (some before))
    (refused : ∀ change ∈ request.changes.head?, ∃ fault,
      routeChange decode records change = .error fault) :
    ∃ fault, (tableConstraintsApply decode catalog request state).answer = .error fault := by
  simp only [tableConstraintsApply, prepared]
  cases changes : request.changes with
  | nil =>
      rw [interleaved]
      cases made : snapshot catalog request target before state with
      | error fault => exact ⟨fault, rfl⟩
      | ok answer =>
          obtain ⟨info, revision, read, held, rotated, _⟩ := (snapshot_ok catalog _ _ _ _ _).mp made
          rw [readBefore] at read
          cases read
          exact absurd held rotated
  | cons change rest =>
      obtain ⟨fault, here⟩ := refused change (by rw [changes]; rfl)
      exact ⟨fault, by simp only [interleaved, here]⟩

/-- The default is all or nothing exactly when it refuses the request before the loop or at its
first change, or every change is performed and the table then serves a new revision. -/
theorem constraints_apply_atomic_iff (request : ConstraintsApplyRequest) (state : State) :
    Atomic decode catalog request state ↔
      ∀ target before records,
        prepare decode catalog request state = .ok (target, before, records) →
          RoutedThroughout decode catalog request state target records := by
  cases prepared : prepare decode catalog request state with
  | error fault =>
      refine iff_of_true (.inr ⟨⟨fault, ?_⟩, ?_⟩) nofun <;>
        simp only [tableConstraintsApply, prepared]
  | ok held =>
      obtain ⟨target, before, records⟩ := held
      obtain ⟨readBefore, revisionBefore⟩ :=
        prepare_ok decode catalog request state target before records prepared
      have calls_eq : (tableConstraintsApply decode catalog request state).calls =
          (interleaved (routeChange decode records) (performCall catalog target) state
            request.changes).calls := by
        simp only [tableConstraintsApply, prepared]
        split <;> rfl
      constructor
      · intro atomic target' before' records' same
        cases same
        rcases atomic with ⟨answer, target', before', records', answered, same, checked, performed,
          rotated⟩ | ⟨_, none⟩
        · rw [prepared] at same
          cases same
          right
          simp only [tableConstraintsApply, prepared] at answered
          split at answered
          · cases answered
          · rename_i ended
            obtain ⟨checked, performed⟩ := interleaved_ok _ _ state request.changes ended
            obtain ⟨info, revision, read, held, _, rfl⟩ :=
              (snapshot_ok catalog _ _ _ _ _).mp answered
            exact ⟨_, _, info, revision, checked, performed, read, held, rotated⟩
        · left
          rw [calls_eq] at none
          exact (interleaved_calls_nil _ _ state request.changes).mp none
      · intro routed
        rcases routed target before records rfl with refused | ⟨calls, final, info, revision, checked,
          performed, read, held, rotated⟩
        · refine .inr ⟨?_, ?_⟩
          · exact refused_answer decode catalog request state target before records prepared readBefore
              refused
          · rw [calls_eq]
            exact (interleaved_calls_nil _ _ state request.changes).mpr refused
        · have run := interleaved_eq _ _ state request.changes calls final checked performed
          refine .inl ⟨⟨request.table, revision, info.constraints.getD []⟩, target, before, records,
            ?_, prepared, ?_, ?_, rotated⟩
          · simp only [tableConstraintsApply, prepared, run]
            refine (snapshot_ok catalog _ _ _ _ _).mpr ⟨info, revision, read, held, ?_, rfl⟩
            rw [revisionBefore]
            exact fun same => rotated (Option.some.inj same).symm
          · simp only [tableConstraintsApply, prepared, run]
            exact checked
          · simp only [tableConstraintsApply, prepared, run]
            exact performed

end

/-! ## A sample -/

/-- Records of one byte: zero stands for a NOT NULL of the column `a`, any other for a UNIQUE. -/
def sampleDecoders : RecordDecoders where
  catalogObjectRef := ⟨fun _ => .ok [], fun _ => .ok ⟨text "TABLE", [text "main"], text "t", none⟩⟩
  sqlExpression := ⟨fun _ => .ok [], fun _ => .ok
    ⟨[], Constraints.rowScalarExpression, [], Constraints.checkContext⟩⟩
  foreignKeyDefinition := ⟨fun _ => .ok [], fun bytes => .ok ⟨bytes, [], [], [], []⟩⟩
  constraintDefinition := ⟨fun _ => .ok [], fun bytes => .ok
    ⟨text (if bytes = [0] then "NOT_NULL" else "UNIQUE"), [[text "a"]], none, none, none⟩⟩
  constraintInfo := ⟨fun _ => .ok [], fun bytes => .ok
    ⟨bytes, bytes, text "ENFORCED", text "ALL_ROWS", none⟩⟩
  constraintChange := fun bytes => .ok ⟨text "ADD", none, some bytes⟩

/-- A catalog whose state is the revision of its table. -/
def sampleCatalog : LegacyCatalog UInt8 where
  tableGet := fun revision _ => .ok (some ⟨some [revision], none⟩)
  tableNotNullSet := fun revision _ _ => .ok (revision + 1)
  tableNotNullDrop := fun revision _ _ => .ok (revision + 1)
  implementsLegacyNotNull := true

/-- The NOT NULL is set before the UNIQUE behind it is refused. -/
theorem refused_request_half_applied :
    tableConstraintsApply sampleDecoders sampleCatalog ⟨[], [7], [[0], [1]]⟩ 7 =
      ⟨8, [.set [text "a"]], .error notRouted⟩ ∧
    ¬Atomic sampleDecoders sampleCatalog ⟨[], [7], [[0], [1]]⟩ 7 := by
  have run : tableConstraintsApply sampleDecoders sampleCatalog ⟨[], [7], [[0], [1]]⟩ 7 =
      ⟨8, [.set [text "a"]], .error notRouted⟩ := rfl
  refine ⟨run, ?_⟩
  rintro (⟨answer, _, _, _, answered, _⟩ | ⟨_, none⟩)
  · rw [run] at answered
    cases answered
  · rw [run] at none
    cases none

end VgiWorker.Catalog.ConstraintsApply
