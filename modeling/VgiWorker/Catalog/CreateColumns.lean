import VgiWorker.Catalog.Constraints

/-!
# The columns of CREATE TABLE

The check of new columns against the constraint definitions sent with them. Reading a schema and
reading a definition are parameters.
-/

set_option autoImplicit false

namespace VgiWorker.Catalog.Constraints

open VgiWorker.Js VgiWorker.Arrow

inductive CreateRefusal where
  | undecodable (reason : Text)
  | schema (reason : Text)
  | tooDeep
  | logicalType
  | nonNullable (path : List Text)
  deriving DecidableEq

def CreateRefusal.message : CreateRefusal → Text
  | .undecodable reason =>
      text "catalog_table_create: undecodable constraint definition: " ++ reason
  | .schema reason => reason
  | .tooDeep => text "catalog_table_create: column nesting exceeds supported depth"
  | .logicalType => text "catalog_table_create: logical column types require negotiation"
  | .nonNullable path =>
      text "catalog_table_create: column " ++ joinText (text ".") path ++
        text " is non-nullable but no NOT_NULL/PRIMARY_KEY definition names it"

/-- The paths, as JSON texts, that a definition allows to be non-nullable. -/
def requiredBy (definition : ConstraintDefinition) : List Text :=
  if definition.kind = text "NOT_NULL" ∨ definition.kind = text "PRIMARY_KEY" then
    definition.columnPaths.map stringifyTexts
  else []

mutual

def visit (required : List Text) (path : List Text) (depth : Nat) :
    FieldOf DataType → Except CreateRefusal Unit
  | ⟨name, type, nullable, metadata⟩ =>
      let field : Field := ⟨name, type, nullable, metadata⟩
      if 64 < depth then .error .tooDeep
      else if depth = 0 ∧ isRowIdField field = true then .ok ()
      else if hasLogicalType field = true then .error .logicalType
      else if nullable = false ∧ stringifyTexts path ∉ required then .error (.nonNullable path)
      else visitChildren required path (depth + 1) type

def visitChildren (required : List Text) (path : List Text) (depth : Nat) :
    DataType → Except CreateRefusal Unit
  | .struct children => visitAll required path depth children
  | _ => .ok ()

def visitAll (required : List Text) (path : List Text) (depth : Nat) :
    List (FieldOf DataType) → Except CreateRefusal Unit
  | [] => .ok ()
  | child :: rest => do
      visit required (path ++ [child.name]) depth child
      visitAll required path depth rest

end

section

variable (decodeConstraintDefinition : Bytes → Except Text ConstraintDefinition)
  (deserializeSchema : Bytes → Except Text Schema)

def requiredPaths (definitions : List Bytes) : Except CreateRefusal (List Text) := do
  let decoded ← definitions.mapM fun bytes =>
    (decodeConstraintDefinition bytes).mapError CreateRefusal.undecodable
  .ok (decoded.flatMap requiredBy)

def requireCreateColumns (columns : Bytes) (definitions : List Bytes) :
    Except CreateRefusal Unit := do
  let required ← requiredPaths decodeConstraintDefinition definitions
  let schema ← (deserializeSchema columns).mapError CreateRefusal.schema
  visitAll required [] 0 schema.fields

def requireUnconstrainedColumns (columns : Bytes) : Except CreateRefusal Unit :=
  requireCreateColumns decodeConstraintDefinition deserializeSchema columns []

end

/-! ## Fields of a column -/

/-- What a field is to the field that holds it. -/
inductive Role where
  | ordinary
  | mapEntries
  | mapKey
  deriving DecidableEq

/-- The fields that a type holds; the first field of a map's entries is its key. -/
def partsOf (role : Role) : DataType → List (Role × Field)
  | .map _ (entries :: rest) => (.mapEntries, entries) :: rest.map (Prod.mk .ordinary)
  | .struct (first :: rest) =>
      (if role = .mapEntries then .mapKey else .ordinary, first) :: rest.map (Prod.mk .ordinary)
  | .list children => children.map (Prod.mk .ordinary)
  | .fixedSizeList _ children => children.map (Prod.mk .ordinary)
  | .union _ _ children => children.map (Prod.mk .ordinary)
  | .dictionary _ values _ _ => partsOf .ordinary values
  | _ => []

/-- A field at any depth of another, with its role and its path. -/
inductive Reaches : Role → Field → List Text → Role → Field → List Text → Prop where
  | here (role : Role) (field : Field) (path : List Text) : Reaches role field path role field path
  | inner (role : Role) (field : Field) (path : List Text) (part : Role) (child : Field)
      (found : Role) (field' : Field) (path' : List Text)
      (held : (part, child) ∈ partsOf role field.type)
      (later : Reaches part child (path ++ [child.name]) found field' path') :
      Reaches role field path found field' path'

/-- A field that is reached through structs only. -/
inductive ThroughStructs : Field → List Text → Field → List Text → Prop where
  | here (field : Field) (path : List Text) : ThroughStructs field path field path
  | inner (field : Field) (path : List Text) (children : List Field) (child field' : Field)
      (path' : List Text) (isStruct : field.type = .struct children) (held : child ∈ children)
      (later : ThroughStructs child (path ++ [child.name]) field' path') :
      ThroughStructs field path field' path'

/-- No logical type, and nullable unless a definition names the path; a map's entries and keys
are never null. -/
structure Allowed (named : List Text → Prop) (role : Role) (field : Field) (path : List Text) :
    Prop where
  plain : hasLogicalType field = false
  nullable : field.nullable = true ∨ role ≠ .ordinary ∨ named path

theorem structInduction {holds : Field → Prop}
    (step : ∀ field, (∀ children, field.type = .struct children →
      ∀ child ∈ children, holds child) → holds field) (field : Field) : holds field :=
  step field fun children _isStruct child _member => structInduction step child
termination_by sizeOf field
decreasing_by
  obtain ⟨name, type, nullable, metadata⟩ := field
  dsimp only at _isStruct
  subst _isStruct
  have smaller := List.sizeOf_lt_of_mem _member
  simp only [FieldOf.mk.sizeOf_spec, DataType.struct.sizeOf_spec]
  omega

/-! ## What the check accepts -/

section

variable (required : List Text)

theorem visitAll_ok_iff (path : List Text) (depth : Nat) (fields : List Field) :
    visitAll required path depth fields = .ok () ↔
      ∀ field ∈ fields, visit required (path ++ [field.name]) depth field = .ok () := by
  induction fields with
  | nil => exact iff_of_true rfl nofun
  | cons field rest ih =>
      rw [List.forall_mem_cons, ← ih, visitAll]
      constructor
      · intro success
        obtain ⟨_, here, later⟩ := except_bind_ok _ _ _ success
        exact ⟨here, later⟩
      · rintro ⟨here, later⟩
        rw [here, except_ok_bind, later]

theorem visit_user (path : List Text) (depth : Nat) (field : Field)
    (user : ¬ (depth = 0 ∧ isRowIdField field = true)) :
    visit required path depth field = .ok () ↔
      depth ≤ 64 ∧ hasLogicalType field = false ∧
        (field.nullable = true ∨ stringifyTexts path ∈ required) ∧
        ∀ children, field.type = .struct children → ∀ child ∈ children,
          visit required (path ++ [child.name]) (depth + 1) child = .ok () := by
  obtain ⟨name, type, nullable, metadata⟩ := field
  have deeper : visitChildren required path (depth + 1) type = .ok () ↔
      ∀ children, type = .struct children → ∀ child ∈ children,
        visit required (path ++ [child.name]) (depth + 1) child = .ok () := by
    cases type with
    | struct children => simp [visitChildren, visitAll_ok_iff]
    | _ => simp [visitChildren]
  rw [← deeper, visit]
  dsimp only
  by_cases deep : 64 < depth
  · rw [if_pos deep]
    exact iff_of_false nofun fun accepted => absurd accepted.1 (Nat.not_le.mpr deep)
  · rw [if_neg deep, if_neg user]
    by_cases logical : hasLogicalType ⟨name, type, nullable, metadata⟩ = true
    · rw [if_pos logical]
      exact iff_of_false nofun fun accepted => by
        rw [logical] at accepted
        cases accepted.2.1
    · rw [if_neg logical]
      split
      · rename_i refused
        refine iff_of_false nofun fun accepted => ?_
        rcases accepted.2.2.1 with isNullable | named
        · rw [refused.1] at isNullable
          cases isNullable
        · exact refused.2 named
      · rename_i allowed
        have isAllowed : nullable = true ∨ stringifyTexts path ∈ required := by
          cases nullable with
          | true => exact .inl rfl
          | false => exact .inr (not_not.mp fun absent => allowed ⟨rfl, absent⟩)
        have plain := eq_false_of_ne_true logical
        exact ⟨fun success => ⟨Nat.not_lt.mp deep, plain, isAllowed, success⟩,
          fun accepted => accepted.2.2.2⟩

/-- A field passes with everything that is reached from it through structs. -/
theorem visit_ok_iff (field : Field) (path : List Text) (depth : Nat)
    (level : path.length = depth + 1) (user : ¬ (depth = 0 ∧ isRowIdField field = true)) :
    visit required path depth field = .ok () ↔
      ∀ field' path', ThroughStructs field path field' path' →
        path'.length ≤ 65 ∧ Allowed (fun path => stringifyTexts path ∈ required) .ordinary field'
          path' := by
  induction field using structInduction generalizing path depth with
  | step field ih =>
    rw [visit_user required path depth field user]
    constructor
    · rintro ⟨shallow, plain, allowed, children⟩ field' path' reached
      cases reached with
      | here => exact ⟨by omega, plain, by simpa using allowed⟩
      | inner _ _ fields child _ _ isStruct held later =>
          have below := (ih fields isStruct child held (path ++ [child.name]) (depth + 1)
            (by simp [level]) (by simp)).mp (children fields isStruct child held)
          exact below field' path' later
    · intro sound
      obtain ⟨shallow, plain, allowed⟩ := sound field path (.here field path)
      refine ⟨by omega, plain, by simpa using allowed, fun fields isStruct child held => ?_⟩
      refine (ih fields isStruct child held (path ++ [child.name]) (depth + 1)
        (by simp [level]) (by simp)).mpr fun field' path' later => ?_
      exact sound field' path' (.inner field path fields child field' path' isStruct held later)

end

/-! ## Schemas -/

/-- A definition that allows a non-nullable column names the path. -/
def Names (decodeConstraintDefinition : Bytes → Except Text ConstraintDefinition)
    (definitions : List Bytes) (path : List Text) : Prop :=
  ∃ bytes ∈ definitions, ∃ definition, decodeConstraintDefinition bytes = .ok definition ∧
    (definition.kind = text "NOT_NULL" ∨ definition.kind = text "PRIMARY_KEY") ∧
    path ∈ definition.columnPaths

/-- What is reached from a user column through structs lies at most 64 levels below it. -/
def Shallow (fields : List Field) : Prop :=
  ∀ column ∈ fields, isRowIdField column = false → ∀ field path,
    ThroughStructs column [column.name] field path → path.length ≤ 65

def AllowedInStructs (named : List Text → Prop) (fields : List Field) : Prop :=
  ∀ column ∈ fields, isRowIdField column = false → ∀ field path,
    ThroughStructs column [column.name] field path → Allowed named .ordinary field path

/-- Every field at any depth of a user column is allowed. -/
def AllowedEverywhere (named : List Text → Prop) (fields : List Field) : Prop :=
  ∀ column ∈ fields, isRowIdField column = false → ∀ role field path,
    Reaches .ordinary column [column.name] role field path → Allowed named role field path

private theorem reaches_of_throughStructs (field field' : Field) (path path' : List Text)
    (reached : ThroughStructs field path field' path') :
    Reaches .ordinary field path .ordinary field' path' := by
  induction reached with
  | here field path => exact .here .ordinary field path
  | inner field path children child field' path' isStruct held _ ih =>
      refine .inner .ordinary field path .ordinary child .ordinary field' path' ?_ ih
      rw [isStruct]
      cases children with
      | nil => cases held
      | cons first rest =>
          rcases List.mem_cons.mp held with rfl | later
          · exact List.mem_cons_self
          · exact List.mem_cons_of_mem _ (List.mem_map_of_mem later)

theorem AllowedEverywhere.inStructs (named : List Text → Prop) (fields : List Field)
    (allowed : AllowedEverywhere named fields) : AllowedInStructs named fields :=
  fun column member user field path reached =>
    allowed column member user .ordinary field path
      (reaches_of_throughStructs column field [column.name] path reached)

private theorem mem_requiredBy (definition : ConstraintDefinition) (path : List Text) :
    stringifyTexts path ∈ requiredBy definition ↔
      (definition.kind = text "NOT_NULL" ∨ definition.kind = text "PRIMARY_KEY") ∧
        path ∈ definition.columnPaths := by
  unfold requiredBy
  split
  · rename_i requires
    constructor
    · intro listed
      obtain ⟨other, member, same⟩ := List.mem_map.mp listed
      exact ⟨requires, stringifyTexts_inj other path same ▸ member⟩
    · exact fun named => List.mem_map_of_mem named.2
  · rename_i other
    exact iff_of_false nofun fun named => other named.1

section

variable (decodeConstraintDefinition : Bytes → Except Text ConstraintDefinition)

theorem requiredPaths_spec (definitions : List Bytes)
    (decodable : ∀ bytes ∈ definitions, ∃ definition,
      decodeConstraintDefinition bytes = .ok definition) :
    ∃ required, requiredPaths decodeConstraintDefinition definitions = .ok required ∧
      ∀ path, stringifyTexts path ∈ required ↔
        Names decodeConstraintDefinition definitions path := by
  obtain ⟨decoded, isDecoded⟩ := except_mapM_exists (fun bytes =>
      (decodeConstraintDefinition bytes).mapError CreateRefusal.undecodable) definitions
    fun bytes member => by
      obtain ⟨definition, isDefinition⟩ := decodable bytes member
      exact ⟨definition, by rw [isDefinition]; rfl⟩
  refine ⟨decoded.flatMap requiredBy, by rw [requiredPaths, isDecoded]; rfl, fun path => ?_⟩
  rw [List.mem_flatMap, Names]
  constructor
  · rintro ⟨definition, member, listed⟩
    obtain ⟨bytes, present, isDefinition⟩ := except_mapM_sources _ _ _ isDecoded definition member
    rw [except_mapError_ok] at isDefinition
    exact ⟨bytes, present, definition, isDefinition, (mem_requiredBy definition path).mp listed⟩
  · rintro ⟨bytes, present, definition, isDefinition, named⟩
    obtain ⟨other, member, isOther⟩ := except_mapM_each _ _ _ isDecoded bytes present
    rw [except_mapError_ok, isDefinition, Except.ok.injEq] at isOther
    subst isOther
    exact ⟨definition, member, (mem_requiredBy definition path).mpr named⟩

/-- The check accepts the shallow schemas whose fields behind structs are allowed. -/
theorem requireCreateColumns_ok_iff (deserializeSchema : Bytes → Except Text Schema)
    (columns : Bytes) (definitions : List Bytes) (schema : Schema)
    (decodable : ∀ bytes ∈ definitions, ∃ definition,
      decodeConstraintDefinition bytes = .ok definition)
    (deserialized : deserializeSchema columns = .ok schema) :
    requireCreateColumns decodeConstraintDefinition deserializeSchema columns definitions = .ok () ↔
      Shallow schema.fields ∧
        AllowedInStructs (Names decodeConstraintDefinition definitions) schema.fields := by
  obtain ⟨required, isRequired, named⟩ :=
    requiredPaths_spec decodeConstraintDefinition definitions decodable
  have same : (fun path => stringifyTexts path ∈ required) =
      Names decodeConstraintDefinition definitions := funext fun path => propext (named path)
  rw [requireCreateColumns, isRequired, except_ok_bind, deserialized]
  change visitAll required [] 0 schema.fields = .ok () ↔ _
  rw [visitAll_ok_iff]
  constructor
  · intro accepted
    have each : ∀ column ∈ schema.fields, isRowIdField column = false → ∀ field path,
        ThroughStructs column [column.name] field path → path.length ≤ 65 ∧
          Allowed (Names decodeConstraintDefinition definitions) .ordinary field path := by
      intro column member user
      rw [← same]
      exact (visit_ok_iff required column [column.name] 0 rfl (by simp [user])).mp
        (accepted column member)
    exact ⟨fun column member user field path reached => (each column member user field path reached).1,
      fun column member user field path reached => (each column member user field path reached).2⟩
  · rintro ⟨shallow, allowed⟩ column member
    by_cases rowId : isRowIdField column = true
    · obtain ⟨name, type, nullable, metadata⟩ := column
      rw [visit]
      simp [rowId]
    · have user := eq_false_of_ne_true rowId
      refine (visit_ok_iff required column [column.name] 0 rfl (by simp [user])).mpr ?_
      rw [same]
      exact fun field path reached => ⟨shallow column member user field path reached,
        allowed column member user field path reached⟩

/-- What the check accepts is nested in structs at most 64 deep and is allowed wherever structs
lead; and it accepts every such schema whose fields are allowed at every depth. -/
theorem create_columns_checked (deserializeSchema : Bytes → Except Text Schema)
    (columns : Bytes) (definitions : List Bytes) (schema : Schema)
    (decodable : ∀ bytes ∈ definitions, ∃ definition,
      decodeConstraintDefinition bytes = .ok definition)
    (deserialized : deserializeSchema columns = .ok schema) :
    (requireCreateColumns decodeConstraintDefinition deserializeSchema columns definitions =
        .ok () →
      Shallow schema.fields ∧
        AllowedInStructs (Names decodeConstraintDefinition definitions) schema.fields) ∧
    (Shallow schema.fields →
      AllowedEverywhere (Names decodeConstraintDefinition definitions) schema.fields →
      requireCreateColumns decodeConstraintDefinition deserializeSchema columns definitions =
        .ok ()) := by
  have accepted := requireCreateColumns_ok_iff decodeConstraintDefinition deserializeSchema columns
    definitions schema decodable deserialized
  exact ⟨accepted.mp, fun shallow allowed =>
    accepted.mpr ⟨shallow, AllowedEverywhere.inStructs _ _ allowed⟩⟩

end

/-- One NOT NULL definition of the column `a`. -/
def sampleDefinition : ConstraintDefinition where
  kind := text "NOT_NULL"
  columnPaths := [[text "a"]]
  declaredName := none
  checkExpression := none
  foreignKey := none

def sampleSchema : Schema :=
  ⟨[⟨text "a", .int 32 true, false, .empty⟩, ⟨text "b", .list [⟨text "item", .utf8, true, .empty⟩],
    true, .empty⟩], .empty⟩

theorem create_columns_checked_sample :
    requireCreateColumns (fun _ => .ok sampleDefinition) (fun _ => .ok sampleSchema) [] [[1]] =
        .ok () ∧ Shallow sampleSchema.fields ∧
      AllowedInStructs (Names (fun _ => .ok sampleDefinition) [[1]]) sampleSchema.fields := by
  have accepted : requireCreateColumns (fun _ => .ok sampleDefinition) (fun _ => .ok sampleSchema)
      [] [[1]] = .ok () := by decide +kernel
  exact ⟨accepted, (create_columns_checked (fun _ => .ok sampleDefinition)
    (fun _ => .ok sampleSchema) [] [[1]] sampleSchema (fun _ _ => ⟨_, rfl⟩) rfl).1 accepted⟩

/-! ## Too deep, and not deep enough -/

/-- A nullable integer inside structs. -/
def nested : Nat → DataType
  | 0 => .int 32 true
  | depth + 1 => .struct [⟨text "s", nested depth, true, .empty⟩]

def deepColumn : Field :=
  ⟨text "s", nested 65, true, .empty⟩

/-- A list whose items are never null. -/
def requiredItems : Field :=
  ⟨text "l", .list [⟨text "item", .int 32 true, false, .empty⟩], true, .empty⟩

private theorem nested_allowed (named : List Text → Prop) (role found : Role)
    (field field' : Field) (path path' : List Text)
    (reached : Reaches role field path found field' path') (depth : Nat)
    (shape : field = ⟨text "s", nested depth, true, .empty⟩) : Allowed named found field' path' := by
  induction reached generalizing depth with
  | here role field path =>
      subst shape
      exact ⟨rfl, .inl rfl⟩
  | inner role field path part child found field' path' held _ ih =>
      subst shape
      cases depth with
      | zero => cases held
      | succ depth =>
          obtain rfl : child = ⟨text "s", nested depth, true, .empty⟩ := by
            have single := List.mem_singleton.mp held
            exact congrArg Prod.snd single
          exact ih depth rfl

/-- Without definitions, a column of 65 nullable structs in one another is refused, and a list of
items that are never null is accepted. -/
theorem create_columns_gap :
    requireCreateColumns (fun _ => .error []) (fun _ => .ok ⟨[deepColumn], .empty⟩) [] [] =
        .error .tooDeep ∧
      AllowedEverywhere (Names (fun _ => .error []) []) [deepColumn] ∧
    requireCreateColumns (fun _ => .error []) (fun _ => .ok ⟨[requiredItems], .empty⟩) [] [] =
        .ok () ∧
      ¬ AllowedEverywhere (Names (fun _ => .error []) []) [requiredItems] := by
  refine ⟨by decide +kernel, ?_, by decide +kernel, fun allowed => ?_⟩
  · intro column member _ role field path reached
    obtain rfl := List.mem_singleton.mp member
    exact nested_allowed _ _ _ _ _ _ _ reached 65 rfl
  · have item := allowed requiredItems List.mem_cons_self (by decide) .ordinary
      ⟨text "item", .int 32 true, false, .empty⟩ _ (.inner _ _ _ .ordinary _ _ _ _
        List.mem_cons_self (.here _ _ _))
    rcases item.nullable with isNullable | exempt | ⟨bytes, member, _⟩
    · cases isNullable
    · exact exempt rfl
    · cases member

end VgiWorker.Catalog.Constraints
