import VgiWorker.Catalog.Constraints

/-!
# Served nullability

The fields of a table as they are served: nullability is what the constraint
records require, and nothing else changes.
-/

set_option autoImplicit false

namespace VgiWorker.Catalog.Constraints

open VgiWorker.Js VgiWorker.Arrow

mutual

/-- The rewritten field, or nothing where it is returned as it is. -/
def rewriteField (required : List Text) (path : List Text) : FieldOf DataType → Option Field
  | ⟨name, type, nullable, metadata⟩ =>
      let field : Field := ⟨name, type, nullable, metadata⟩
      if path = [] ∧ isRowIdField field = true then none
      else
        let nullableNow := decide (stringifyTexts (path ++ [name]) ∉ required)
        let newChildren :=
          if hasLogicalType field then none else rewriteChildren required (path ++ [name]) type
        if nullableNow = nullable ∧ newChildren = none then none
        else some ⟨name, newChildren.elim type .struct, nullableNow, metadata⟩

def rewriteChildren (required : List Text) (path : List Text) : DataType → Option (List Field)
  | .struct children => rewrite required path children
  | _ => none

/-- The rewritten list, or nothing where no field of it changes. -/
def rewrite (required : List Text) (path : List Text) : List (FieldOf DataType) → Option (List Field)
  | [] => none
  | field :: rest =>
      match rewriteField required path field, rewrite required path rest with
      | none, none => none
      | changed, others => some (changed.getD field :: others.getD rest)

end

def servedConstraintFields (fields : List Field) (required : List Text) : List Field :=
  (rewrite required [] fields).getD fields

/-! ## Positions -/

/-- The field that a position names, one index for each level of children. -/
def fieldAt : List Field → List Nat → Option Field
  | _, [] => none
  | fields, [index] => fields[index]?
  | fields, index :: rest =>
      fields[index]?.bind fun field => field.type.children?.bind fun children => fieldAt children rest

/-- The names on the way to a position, where it goes through ordinary structs only. -/
def namesAt : List Field → List Nat → Option (List Text)
  | _, [] => none
  | fields, [index] => fields[index]?.map fun field => [field.name]
  | fields, index :: rest =>
      fields[index]?.bind fun field => (ordinaryStructChildren field).bind fun children =>
        (namesAt children rest).map fun names => field.name :: names

/-- The position is in the row-id column, which is not the user's. -/
def inRowId (fields : List Field) (position : List Nat) : Bool :=
  (position.head?.bind (fields[·]?)).any isRowIdField

mutual

/-- The field with all nullability forgotten, at every depth. -/
def forgetNullable : FieldOf DataType → Field
  | ⟨name, type, _, metadata⟩ => ⟨name, forgetNullableType type, true, metadata⟩

def forgetNullableType : DataType → DataType
  | .list children => .list (forgetNullableAll children)
  | .struct children => .struct (forgetNullableAll children)
  | .union mode typeIds children => .union mode typeIds (forgetNullableAll children)
  | .fixedSizeList listSize children => .fixedSizeList listSize (forgetNullableAll children)
  | .map keysSorted children => .map keysSorted (forgetNullableAll children)
  | .dictionary id dictionary indices ordered =>
      .dictionary id (forgetNullableType dictionary) (forgetNullableType indices) ordered
  | type => type

def forgetNullableAll : List (FieldOf DataType) → List Field
  | [] => []
  | field :: rest => forgetNullable field :: forgetNullableAll rest

end

/-! ## One field -/

section

variable (required : List Text)

/-- The field as it is served, below these names. -/
def servedField (path : List Text) (field : Field) : Field :=
  (rewriteField required path field).getD field

theorem rewrite_eq_none (path : List Text) (fields : List Field) :
    rewrite required path fields = none ↔
      ∀ field ∈ fields, rewriteField required path field = none := by
  induction fields with
  | nil => simp [rewrite]
  | cons field rest ih =>
      rw [List.forall_mem_cons, ← ih, rewrite]
      cases rewriteField required path field <;> cases rewrite required path rest <;> simp

theorem rewrite_getD (path : List Text) (fields : List Field) :
    (rewrite required path fields).getD fields = fields.map (servedField required path) := by
  induction fields with
  | nil => rfl
  | cons field rest ih =>
      rw [List.map_cons, ← ih, rewrite, servedField]
      cases rewriteField required path field <;> cases rewrite required path rest <;> rfl

private theorem rewriteField_eq (path : List Text) (field : Field) :
    rewriteField required path field =
      if path = [] ∧ isRowIdField field = true then none
      else
        let nullableNow := decide (stringifyTexts (path ++ [field.name]) ∉ required)
        let newChildren :=
          if hasLogicalType field then none
          else rewriteChildren required (path ++ [field.name]) field.type
        if nullableNow = field.nullable ∧ newChildren = none then none
        else some { field with
          type := newChildren.elim field.type .struct, nullable := nullableNow } := by
  obtain ⟨name, type, nullable, metadata⟩ := field
  rw [rewriteField]

theorem servedField_rowId (field : Field) (isRowId : isRowIdField field = true) :
    servedField required [] field = field := by
  rw [servedField, rewriteField_eq, if_pos ⟨rfl, isRowId⟩]
  rfl

private theorem servedField_eq (path : List Text) (field : Field)
    (users : ¬(path = [] ∧ isRowIdField field = true)) :
    servedField required path field =
      { field with
        type := (if hasLogicalType field then none
          else rewriteChildren required (path ++ [field.name]) field.type).elim field.type .struct
        nullable := decide (stringifyTexts (path ++ [field.name]) ∉ required) } := by
  rw [servedField, rewriteField_eq, if_neg users]
  dsimp only
  generalize (if hasLogicalType field = true then none
    else rewriteChildren required (path ++ [field.name]) field.type) = newChildren
  generalize decide (stringifyTexts (path ++ [field.name]) ∉ required) = nullableNow
  split
  · rename_i same
    rw [same.2, same.1]
    rfl
  · rfl

theorem servedField_struct (path : List Text) (field : Field) (children : List Field)
    (users : ¬(path = [] ∧ isRowIdField field = true))
    (ordinary : ordinaryStructChildren field = some children) :
    servedField required path field =
      { field with
        type := .struct (children.map (servedField required (path ++ [field.name])))
        nullable := decide (stringifyTexts (path ++ [field.name]) ∉ required) } := by
  obtain ⟨name, type, nullable, metadata⟩ := field
  rw [servedField_eq required path _ users]
  cases type with
  | struct below =>
      cases logical : hasLogicalType ⟨name, .struct below, nullable, metadata⟩ with
      | true => simp [ordinaryStructChildren, logical] at ordinary
      | false =>
          obtain rfl : below = children := by simpa [ordinaryStructChildren, logical] using ordinary
          rw [← rewrite_getD]
          simp only [Bool.false_eq_true, if_false, rewriteChildren]
          cases rewrite required (path ++ [name]) below <;> rfl
  | _ => simp [ordinaryStructChildren] at ordinary

theorem servedField_other (path : List Text) (field : Field)
    (users : ¬(path = [] ∧ isRowIdField field = true))
    (other : ordinaryStructChildren field = none) :
    servedField required path field =
      { field with nullable := decide (stringifyTexts (path ++ [field.name]) ∉ required) } := by
  obtain ⟨name, type, nullable, metadata⟩ := field
  rw [servedField_eq required path _ users]
  cases type with
  | struct below =>
      cases logical : hasLogicalType ⟨name, .struct below, nullable, metadata⟩ with
      | true => rfl
      | false => simp [ordinaryStructChildren, logical] at other
  | _ => cases hasLogicalType ⟨name, _, nullable, metadata⟩ <;> rfl

theorem servedField_metadata (path : List Text) (field : Field) :
    (servedField required path field).metadata = field.metadata ∧
      (servedField required path field).name = field.name := by
  by_cases users : path = [] ∧ isRowIdField field = true
  · obtain ⟨rfl, isRowId⟩ := users
    rw [servedField_rowId required field isRowId]
    exact ⟨rfl, rfl⟩
  · rw [servedField_eq required path field users]
    exact ⟨rfl, rfl⟩

/-! ## Nullability at every position -/

private theorem ordinary_children (field : Field) (children : List Field)
    (ordinary : ordinaryStructChildren field = some children) : field.type = .struct children := by
  obtain ⟨name, type, nullable, metadata⟩ := field
  cases type with
  | struct below =>
      unfold ordinaryStructChildren at ordinary
      dsimp only at ordinary
      split at ordinary
      · cases ordinary
      · rw [Option.some.inj ordinary]
  | _ => simp [ordinaryStructChildren] at ordinary

/-- Whether a field at a position is served nullable. -/
def nullableAt (path : List Text) (fields : List Field) (position : List Nat) (stated : Bool) :
    Bool :=
  if path = [] ∧ inRowId fields position = true then stated
  else
    match namesAt fields position with
    | some names => decide (stringifyTexts (path ++ names) ∉ required)
    | none => stated

theorem nullable_served (position : List Nat) (path : List Text) (fields : List Field)
    (field : Field) (stands : fieldAt fields position = some field) :
    ∃ served, fieldAt (fields.map (servedField required path)) position = some served ∧
      served.nullable = nullableAt required path fields position field.nullable := by
  induction position generalizing path fields with
  | nil => cases stands
  | cons index rest ih =>
      cases rest with
      | nil =>
          have here : fields[index]? = some field := stands
          refine ⟨servedField required path field, by simp [fieldAt, here], ?_⟩
          unfold nullableAt
          have rowId : inRowId fields [index] = isRowIdField field := by simp [inRowId, here]
          rw [rowId]
          split
          · rename_i isRowId
            rw [isRowId.1, servedField_rowId required field isRowId.2]
          · rename_i users
            rw [servedField_eq required path field users]
            simp [namesAt, here]
      | cons second rest =>
          obtain ⟨top, here, stands⟩ := Option.bind_eq_some_iff.mp stands
          obtain ⟨children, below, stands⟩ := Option.bind_eq_some_iff.mp stands
          have servedHere : (fields.map (servedField required path))[index]? =
              some (servedField required path top) := by simp [here]
          have rowId : inRowId fields (index :: second :: rest) = isRowIdField top := by
            simp [inRowId, here]
          unfold nullableAt
          rw [rowId]
          by_cases isRowId : path = [] ∧ isRowIdField top = true
          · obtain ⟨rfl, isRowId⟩ := isRowId
            refine ⟨field, ?_, by simp [isRowId]⟩
            rw [fieldAt, servedHere, servedField_rowId required top isRowId, Option.bind_some, below,
              Option.bind_some, stands]
            exact nofun
          · rw [if_neg isRowId]
            cases ordinary : ordinaryStructChildren top with
            | some ordinaryChildren =>
                have isStruct := ordinary_children top ordinaryChildren ordinary
                rw [isStruct] at below
                obtain rfl : ordinaryChildren = children := Option.some.inj below
                obtain ⟨served, servedAt, nullable⟩ := ih (path ++ [top.name]) ordinaryChildren stands
                refine ⟨served, ?_, ?_⟩
                · rw [fieldAt, servedHere, Option.bind_some,
                    servedField_struct required path top ordinaryChildren isRowId ordinary]
                  · exact servedAt
                  · exact nofun
                · rw [nullable]
                  have deeper : path ++ [top.name] ≠ [] := by simp
                  simp [nullableAt, deeper, namesAt, here, ordinary]
                  cases namesAt ordinaryChildren (second :: rest) <;> simp
            | none =>
                refine ⟨field, ?_, ?_⟩
                · rw [fieldAt, servedHere, Option.bind_some,
                    servedField_other required path top isRowId ordinary]
                  · dsimp only
                    rw [below, Option.bind_some, stands]
                  · exact nofun
                · simp [namesAt, here, ordinary]

/-! ## The rest of a field -/

omit required in
/-- What holds of a field when it holds of its children in an ordinary struct holds of every field. -/
theorem ordinaryInduction {holds : Field → Prop}
    (step : ∀ field, (∀ children, ordinaryStructChildren field = some children →
      ∀ child ∈ children, holds child) → holds field) (field : Field) : holds field :=
  step field fun children _ordinary child _member => ordinaryInduction step child
termination_by sizeOf field
decreasing_by
  have isStruct := ordinary_children field children _ordinary
  obtain ⟨name, type, nullable, metadata⟩ := field
  dsimp only at isStruct
  subst isStruct
  have smaller := List.sizeOf_lt_of_mem _member
  simp only [FieldOf.mk.sizeOf_spec, DataType.struct.sizeOf_spec]
  omega

private theorem forgetNullableAll_eq_map (fields : List Field) :
    forgetNullableAll fields = fields.map forgetNullable := by
  induction fields with
  | nil => rfl
  | cons field rest ih => rw [forgetNullableAll, ih, List.map_cons]

private theorem forgetNullable_eq (field : Field) :
    forgetNullable field =
      { field with type := forgetNullableType field.type, nullable := true } := by
  obtain ⟨name, type, nullable, metadata⟩ := field
  rw [forgetNullable]

theorem forgetNullable_served (path : List Text) (field : Field) :
    forgetNullable (servedField required path field) = forgetNullable field := by
  induction field using ordinaryInduction generalizing path with
  | step field ih =>
      by_cases users : path = [] ∧ isRowIdField field = true
      · obtain ⟨rfl, isRowId⟩ := users
        rw [servedField_rowId required field isRowId]
      · cases ordinary : ordinaryStructChildren field with
        | none =>
            rw [servedField_other required path field users ordinary, forgetNullable_eq,
              forgetNullable_eq field]
        | some children =>
            have each : (children.map (servedField required (path ++ [field.name]))).map
                forgetNullable = children.map forgetNullable := by
              rw [List.map_map]
              exact List.map_congr_left fun child member => ih children ordinary child member _
            rw [servedField_struct required path field children users ordinary, forgetNullable_eq,
              forgetNullable_eq field, ordinary_children field children ordinary]
            simp only [forgetNullableType, forgetNullableAll_eq_map, each]

theorem forgetNullableAll_served (fields : List Field) :
    forgetNullableAll (servedConstraintFields fields required) = forgetNullableAll fields := by
  rw [servedConstraintFields, rewrite_getD, forgetNullableAll_eq_map, forgetNullableAll_eq_map,
    List.map_map]
  exact List.map_congr_left fun field _ => forgetNullable_served required [] field

/-! ## Once and for all -/

private theorem isRowIdField_served (path : List Text) (field : Field) :
    isRowIdField (servedField required path field) = isRowIdField field := by
  rw [isRowIdField, (servedField_metadata required path field).1]
  rfl

private theorem hasLogicalType_served (path : List Text) (field : Field) :
    hasLogicalType (servedField required path field) = hasLogicalType field := by
  rw [hasLogicalType, (servedField_metadata required path field).1]
  rfl

/-- A served field is returned as it is. -/
theorem rewriteField_served (path : List Text) (field : Field) :
    rewriteField required path (servedField required path field) = none := by
  induction field using ordinaryInduction generalizing path with
  | step field ih =>
      have names := servedField_metadata required path field
      rw [rewriteField_eq, isRowIdField_served]
      by_cases users : path = [] ∧ isRowIdField field = true
      · rw [if_pos users]
      · rw [if_neg users, hasLogicalType_served, names.2]
        have nullable : (servedField required path field).nullable =
            decide (stringifyTexts (path ++ [field.name]) ∉ required) := by
          rw [servedField_eq required path field users]
        have children : (if hasLogicalType field = true then none
            else rewriteChildren required (path ++ [field.name])
              (servedField required path field).type) = none := by
          cases logical : hasLogicalType field with
          | true => rfl
          | false =>
              rw [if_neg Bool.false_ne_true]
              cases ordinary : ordinaryStructChildren field with
              | none =>
                  rw [servedField_other required path field users ordinary]
                  obtain ⟨name, type, stated, metadata⟩ := field
                  cases type with
                  | struct below => simp [ordinaryStructChildren, logical] at ordinary
                  | _ => rfl
              | some children =>
                  rw [servedField_struct required path field children users ordinary]
                  refine (rewrite_eq_none required _ _).mpr ?_
                  intro child member
                  obtain ⟨below, belowMem, rfl⟩ := List.mem_map.mp member
                  exact ih children ordinary below belowMem _
        dsimp only
        rw [children, nullable, if_pos ⟨rfl, rfl⟩]

/-- Serving again changes nothing. -/
theorem rewrite_served (fields : List Field) :
    rewrite required [] (servedConstraintFields fields required) = none := by
  rw [servedConstraintFields, rewrite_getD, rewrite_eq_none]
  intro served member
  obtain ⟨field, _, rfl⟩ := List.mem_map.mp member
  exact rewriteField_served required [] field

theorem rewrite_none_iff (fields : List Field) :
    rewrite required [] fields = none ↔ servedConstraintFields fields required = fields := by
  constructor
  · intro kept
    rw [servedConstraintFields, kept, Option.getD_none]
  · intro same
    have again := rewrite_served required fields
    rwa [same] at again

end

end VgiWorker.Catalog.Constraints
