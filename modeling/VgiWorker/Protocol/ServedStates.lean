import VgiWorker.Protocol.UserStateSurvives

/-!
# States between the turns of a producer

The state that a turn starts from, as the turn before left it in memory or as it
is read back from the token. The states that the framework keeps itself, of flags
and numbers, are the same either way.
-/

set_option autoImplicit false

namespace VgiWorker.Protocol.UserState

open VgiWorker.Js VgiWorker.Arrow

/-- `Boolean(value)`. -/
def UserValue.truthy : UserValue → Bool
  | .undefined | .null => false
  | .bool value => value
  | .number value => !value.isNaN && !value.strictEq .zero
  | .bigint value => value ≠ 0
  | .string value => value ≠ []
  | _ => true

/-- `value[name]` for a name that no prototype has. -/
def UserValue.member (value : UserValue) (name : Text) : UserValue :=
  match value with
  | .object members | .classInstance _ members => (lookupEntry members name).getD .undefined
  | _ => .undefined

/-- The values of the framework's own states. -/
inductive FrameworkValue : UserValue → Prop where
  | flag (value : Bool) : FrameworkValue (.bool value)
  | number (value : Number) : FrameworkValue (.number value)

private theorem FrameworkValue.portable {value : UserValue} (isFramework : FrameworkValue value) :
    Portable value ∧ WellFormed value := by
  cases isFramework with
  | flag value => exact ⟨.bool value, trivial⟩
  | number value => exact ⟨.number value, trivial⟩

private theorem FrameworkValue.textKept {value : UserValue} (isFramework : FrameworkValue value) :
    TextKept value := by
  cases isFramework <;> trivial

section

variable {library : VectorLibrary} (nested : Nested.NestedVectors library) (ipc : IpcLibrary)
  (dateText : Number → Text)

/-- The state of a turn: rebuilt handlers start from `initial`, the state of `producerInit`, unless
the token carries one. -/
def turnState (initial : UserValue) (fromToken : Bool) (state : UserValue) :
    Except Text UserValue :=
  if fromToken then do
    let stream ← serializeUserState nested ipc dateText state
    let userState ← deserializeUserState ipc dateText stream
    .ok (if userState.isNullish then initial else userState)
  else .ok state

private theorem columnCells_of_vector (type : DataType) (value : Rich) (cell : Value)
    (converts : richToCanonical dateText type value = .ok cell)
    (writes : Nested.buildColumnData nested type [cell] =
      Nested.NestedData.leaf <$> (ColumnData.vector <$> library.vectorFromArray type [cell]))
    (buildable : Buildable library.intervals type cell) :
    ∃ column, Nested.columnCells nested dateText type [value] = .ok column := by
  obtain ⟨vector, made⟩ := library.builds type [cell] (by simp [buildable])
  have canonical : [value].mapM (richToCanonical dateText type) = .ok [cell] :=
    (except_mapM_iff _ _ _).mpr (.cons converts .nil)
  have cells := (except_mapError_ok codecMessage _ _).mpr canonical
  rw [Nested.columnCells, cells, except_ok_bind, writes, made]
  exact ⟨_, rfl⟩

private theorem columnCells_exists (value : UserValue) (isFramework : FrameworkValue value)
    (type : DataType) (inferred : inferFieldType value = .ok type) :
    ∃ column, Nested.columnCells nested dateText type [value.toRich] = .ok column := by
  cases isFramework with
  | flag value =>
      cases inferred
      exact columnCells_of_vector nested dateText .bool (.bool value) (.bool value) rfl rfl trivial
  | number value =>
      cases inferred
      exact columnCells_of_vector nested dateText (.float .double) (.number value) (.number value)
        rfl rfl trivial

private theorem inferFieldType_exists (value : UserValue) (isFramework : FrameworkValue value) :
    ∃ type, inferFieldType value = .ok type := by
  cases isFramework with
  | flag value => exact ⟨.bool, rfl⟩
  | number value => exact ⟨.float .double, rfl⟩

private theorem inferFields_exists (members : List (Text × UserValue))
    (each : ∀ member ∈ members, FrameworkValue member.2) :
    ∃ fields, inferFields members = .ok fields := by
  induction members with
  | nil => exact ⟨[], rfl⟩
  | cons member rest ih =>
      obtain ⟨fields, others⟩ := ih fun other isOther => each other (List.mem_cons_of_mem _ isOther)
      obtain ⟨type, found⟩ := inferFieldType_exists member.2 (each member List.mem_cons_self)
      exact ⟨stateField member.1 type :: fields, by
        rw [inferFields, found, except_ok_bind, others, except_ok_bind]⟩

private theorem stateBatch_exists (members : List (Text × UserValue))
    (distinct : (members.map Prod.fst).Nodup)
    (each : ∀ member ∈ members, FrameworkValue member.2) :
    ∃ batch, stateBatch nested dateText members = .ok batch := by
  obtain ⟨fields, inferred⟩ := inferFields_exists members each
  have sources : ∀ field ∈ fields, ∃ entry ∈ members, field.name = entry.1 ∧
      inferFieldType entry.2 = .ok field.type := by
    intro field member
    obtain ⟨index, here⟩ := List.mem_iff_getElem?.mp member
    obtain ⟨entry, isEntry, isField, found⟩ := forall₂_getElem? (inferFields_ok members fields
      inferred).flip index field here
    exact ⟨entry, List.mem_of_getElem? isEntry, congrArg FieldOf.name isField, found⟩
  have looked : ∀ entry ∈ members,
      lookupEntry (members.map fun entry => (entry.1, [entry.2.toRich])) entry.1 =
        some [entry.2.toRich] := fun entry member =>
    lookupEntry_of_mem _ _ _ (by rwa [List.map_map]) (List.mem_map_of_mem member)
  let values (field : Field) : List Rich :=
    (lookupEntry (members.map fun entry => (entry.1, [entry.2.toRich])) field.name).getD []
  obtain ⟨children, built⟩ := except_mapM_exists (fun field : Field =>
    Nested.columnCells nested dateText field.type (values field)) fields fun field member => by
      obtain ⟨entry, isEntry, named, found⟩ := sources field member
      simp only [values, named, looked entry isEntry, Option.getD_some]
      exact columnCells_exists nested dateText entry.2 (each entry isEntry) field.type found
  rw [stateBatch, inferred, except_ok_bind]
  refine ⟨_, (Nested.batchFromColumns_iff nested dateText _ ⟨fields, .empty⟩ values ?_ _).mpr
    ⟨children, (except_mapM_iff _ _ _).mp built, rfl⟩⟩
  intro field member
  obtain ⟨entry, isEntry, named, _⟩ := sources field member
  simp only [values, named, looked entry isEntry, Option.getD_some]

/-- A state of flags and numbers is the same from the token as in memory. -/
theorem turnState_framework (initial : UserValue) (fromToken : Bool)
    (members : List (Text × UserValue)) (distinct : (members.map Prod.fst).Nodup)
    (plain : text "__proto__" ∉ members.map Prod.fst)
    (named : ∀ member ∈ members, FitsText member.1)
    (each : ∀ member ∈ members, FrameworkValue member.2) :
    turnState nested ipc dateText initial fromToken (.object members) = .ok (.object members) := by
  cases fromToken with
  | false => rfl
  | true =>
      obtain ⟨batch, made⟩ := stateBatch_exists nested dateText members distinct each
      have serialized : serializeUserState nested ipc dateText (.object members) =
          .ok (some (ipc.serializeBatch batch)) := by
        rw [serializeUserState, if_neg (by simp [UserValue.isNullish]), UserValue.entries, made,
          except_ok_bind]
      have wellFormed : WellFormed (.object members) := by
        refine ⟨distinct, (membersWellFormed_iff members).mpr fun member isMember => ?_⟩
        exact (each member isMember).portable.2
      have survives : Survives (.object members) := by
        refine .inr ⟨⟨members, rfl⟩, .object members plain fun member isMember =>
          (each member isMember).portable.1, ?_⟩
        exact (membersTextKept_iff members).mpr fun member isMember =>
          ⟨named member isMember, (each member isMember).textKept⟩
      have restored := deserialized_of_survives dateText nested ipc _ wellFormed _ serialized survives
      rw [turnState, if_pos rfl, serialized, except_ok_bind, restored, except_ok_bind]
      rfl

end

end VgiWorker.Protocol.UserState
