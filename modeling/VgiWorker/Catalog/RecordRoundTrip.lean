import VgiWorker.Catalog.Constraints
import VgiWorker.Js.TextDecoder

/-!
# Built constraints, read and served

What a built record reads back as, and the tables that accept it: those with the
columns that the constraint names, of the kinds that it needs.
-/

set_option autoImplicit false

namespace VgiWorker.Catalog.Constraints

open VgiWorker.Js VgiWorker.Arrow

/-! ## Records through the codec -/

/-- A text as a UTF-8 cell gives it back. -/
def receivedText (value : Text) : Text :=
  textDecode (utf8Encode value)

def CatalogObjectRef.received (record : CatalogObjectRef) : CatalogObjectRef where
  kind := receivedText record.kind
  schemaPath := record.schemaPath.map receivedText
  name := receivedText record.name
  ownerTable := record.ownerTable.map receivedText

def EvaluationContext.received (context : EvaluationContext) : EvaluationContext where
  timezone := receivedText context.timezone
  collation := receivedText context.collation
  defaultOrder := receivedText context.defaultOrder
  defaultNullOrder := receivedText context.defaultNullOrder
  preserveInsertionOrder := context.preserveInsertionOrder

def SqlExpression.received (record : SqlExpression) : SqlExpression where
  sql := receivedText record.sql
  profile := receivedText record.profile
  schemaPath := record.schemaPath.map receivedText
  evaluationContext := record.evaluationContext.received

def ForeignKeyDefinition.received (record : ForeignKeyDefinition) : ForeignKeyDefinition where
  referencedTable := record.referencedTable
  referencedColumnPaths := record.referencedColumnPaths.map (·.map receivedText)
  matching := receivedText record.matching
  onUpdate := receivedText record.onUpdate
  onDelete := receivedText record.onDelete

def ConstraintDefinition.received (record : ConstraintDefinition) : ConstraintDefinition where
  kind := receivedText record.kind
  columnPaths := record.columnPaths.map (·.map receivedText)
  declaredName := record.declaredName.map receivedText
  checkExpression := record.checkExpression
  foreignKey := record.foreignKey

def ConstraintInfo.received (record : ConstraintInfo) : ConstraintInfo where
  ref := record.ref
  definition := record.definition
  enforcement := receivedText record.enforcement
  validation := receivedText record.validation
  referencedConstraint := record.referencedConstraint

/-- What was encoded reads back as it is, but for its texts. -/
def RecordCodec.Carries {Failure Record : Type} (codec : RecordCodec Failure Record)
    (received : Record → Record) : Prop :=
  ∀ record bytes, codec.encode record = .ok bytes → codec.decode bytes = .ok (received record)

/-- Records are columns of UTF-8 and bytes, which Arrow IPC gives back. -/
structure Codecs.Carry {Failure : Type} (codecs : Codecs Failure) : Prop where
  catalogObjectRef : codecs.catalogObjectRef.Carries CatalogObjectRef.received
  sqlExpression : codecs.sqlExpression.Carries SqlExpression.received
  foreignKeyDefinition : codecs.foreignKeyDefinition.Carries ForeignKeyDefinition.received
  constraintDefinition : codecs.constraintDefinition.Carries ConstraintDefinition.received
  constraintInfo : codecs.constraintInfo.Carries ConstraintInfo.received

/-! ## Constraints as they are read -/

def References.view (references : References) : ReferencesView where
  schemaPath := references.schemaPath
  table := references.table
  columns := references.columns
  constraintId := some references.constraintId
  constraintTable := some references.table
  constraintSchemaPath := some references.schemaPath
  matching := text "SIMPLE"
  onUpdate := text "NO_ACTION"
  onDelete := text "NO_ACTION"

/-- The constraint in the vocabulary of the reader. -/
def ConstraintRecordSpec.view (spec : ConstraintRecordSpec) : ConstraintRecordView where
  schemaPath := spec.schemaPath
  table := spec.table
  id := spec.id
  kind := spec.kind.name
  columns := spec.columns
  enforcement := spec.enforcement.name
  validation := spec.validation.name
  declaredName := spec.declaredName
  checkSql := spec.checkSql
  references := spec.references.map (·.view)

def References.received (references : References) : References where
  schemaPath := references.schemaPath.map receivedText
  table := receivedText references.table
  columns := references.columns.map (·.map receivedText)
  constraintId := receivedText references.constraintId

def ConstraintRecordSpec.received (spec : ConstraintRecordSpec) : ConstraintRecordSpec :=
  { spec with
    schemaPath := spec.schemaPath.map receivedText
    table := receivedText spec.table
    id := receivedText spec.id
    columns := spec.columns.map (·.map receivedText)
    declaredName := spec.declaredName.map receivedText
    checkSql := spec.checkSql.map receivedText
    references := spec.references.map (·.received) }

/-- The texts of a constraint. -/
def References.texts (references : References) : List Text :=
  references.schemaPath ++ references.table :: references.constraintId :: references.columns.flatten

def ConstraintRecordSpec.texts (spec : ConstraintRecordSpec) : List Text :=
  spec.schemaPath ++ spec.table :: spec.id :: spec.columns.flatten ++ spec.declaredName.toList ++
    spec.checkSql.toList ++ (spec.references.toList.map References.texts).flatten

/-! ## The columns a constraint names -/

/-- The field is the only one of its kind among these. -/
def OnlyOne (fields : List Field) (keep : Field → Prop) (field : Field) : Prop :=
  ∃ index : Nat, fields[index]? = some field ∧ keep field ∧
    ∀ (other : Nat) (held : Field), fields[other]? = some held → keep held → other = index

/-- The rest of a path leads to this field, through ordinary structs. -/
inductive LeadsTo : Field → List Text → Field → Prop where
  | here (field : Field) : LeadsTo field [] field
  | inside (field found child : Field) (children : List Field) (name : Text) (rest : List Text)
      (struct : ordinaryStructChildren field = some children)
      (only : OnlyOne children (fun other => other.name = name) child)
      (reaches : LeadsTo child rest found) : LeadsTo field (name :: rest) found

/-- A column that a path names: not the row id, and when the constraint makes it non-nullable not
generated. -/
structure NamesColumn (fields : List Field) (required : Prop) (path : List Text) (top : Field) :
    Prop where
  only : OnlyOne fields (fun other => other.name = path.headD []) top
  notRowId : isRowIdField top = false
  reaches : ∃ found, LeadsTo top path.tail found
  stored : required → path.length = 1 → isGeneratedField top = false

/-- A primitive signed numeric column, which a CHECK names without regard to case. -/
structure NumericColumn (toLowerCase : Text → Text) (fields : List Field) (name : Text)
    (column : Field) : Prop where
  only : OnlyOne fields (fun other => toLowerCase other.name = toLowerCase name) column
  notRowId : isRowIdField column = false
  plain : column.metadata.has extensionNameKey = false
  stored : isGeneratedField column = false
  numeric : ∃ type ∈ checkOperandTypes, duckdbPrimitive column = some type

/-- The table has the columns that the constraint names, of the types that it needs, and at most
one row id. -/
structure HasColumns (toLowerCase toUpperCase : Text → Text) (spec : ConstraintRecordSpec)
    (fields : List Field) : Prop where
  rowIds : ∀ (first second : Nat) (left right : Field), fields[first]? = some left →
    fields[second]? = some right → isRowIdField left = true → isRowIdField right = true →
      first = second
  columns : ∀ path ∈ spec.columns, ∃ top,
    NamesColumn fields (spec.kind = .notNull ∨ spec.kind = .primaryKey) path top
  operands : ∀ sql ∈ spec.checkSql, ∀ node,
    Sql.parseScalarSql toLowerCase toUpperCase sql = .ok node →
      ∀ name, [name] ∈ node.references → ∃ column, NumericColumn toLowerCase fields name column

/-! ## Texts that survive -/

theorem receivedText_eq_iff (value : Text) : receivedText value = value ↔ SurvivesUtf8 value := by
  rw [receivedText, textDecode_utf8Encode]
  constructor
  · exact survivesUtf8_of_decoded value
  · intro survives
    exact Option.some.inj
      ((utf8Decode_utf8Encode value).symm.trans (utf8Decode_of_survives value survives))

private theorem map_received_iff (values : List Text) :
    values.map receivedText = values ↔ ∀ value ∈ values, SurvivesUtf8 value := by
  simp only [← receivedText_eq_iff]
  constructor
  · intro same value member
    obtain ⟨index, here⟩ := List.mem_iff_getElem?.mp member
    have there := congrArg (·[index]?) same
    simpa [here] using there
  · intro each
    exact (List.map_congr_left each).trans (List.map_id _)

private theorem map_paths_iff (paths : List (List Text)) :
    paths.map (·.map receivedText) = paths ↔ ∀ value ∈ paths.flatten, SurvivesUtf8 value := by
  constructor
  · intro same
    have flat := congrArg List.flatten same
    rw [← List.map_flatten] at flat
    exact (map_received_iff _).mp flat
  · intro each
    refine (List.map_congr_left fun path member => ?_).trans (List.map_id _)
    exact (map_received_iff path).mpr fun value within =>
      each value (List.mem_flatten.mpr ⟨path, member, within⟩)

private theorem map_option_iff (value : Option Text) :
    value.map receivedText = value ↔ ∀ held ∈ value.toList, SurvivesUtf8 held := by
  cases value with
  | none => simp
  | some held => simp [receivedText_eq_iff]

private theorem references_view_iff (references : References) :
    references.received.view = references.view ↔
      ∀ value ∈ references.texts, SurvivesUtf8 value := by
  simp only [References.view, References.received, References.texts, ReferencesView.mk.injEq,
    Option.some.injEq, map_received_iff, map_paths_iff, receivedText_eq_iff, List.forall_mem_append,
    List.forall_mem_cons]
  tauto

/-- A constraint reads back as it is exactly when UTF-8 keeps its texts. -/
theorem received_view_iff (spec : ConstraintRecordSpec) :
    spec.received.view = spec.view ↔ ∀ value ∈ spec.texts, SurvivesUtf8 value := by
  have references : (spec.references.map (·.received)).map (·.view) =
      spec.references.map (·.view) ↔
        ∀ value ∈ (spec.references.toList.map References.texts).flatten, SurvivesUtf8 value := by
    cases spec.references with
    | none => simp
    | some references => simp [references_view_iff]
  simp only [ConstraintRecordSpec.view, ConstraintRecordSpec.received, ConstraintRecordSpec.texts,
    ConstraintRecordView.mk.injEq, map_received_iff, map_paths_iff, map_option_iff,
    receivedText_eq_iff, references, List.forall_mem_append, List.forall_mem_cons]
  tauto

/-! ## Reading -/

private theorem received_kind (kind : ConstraintKind) : receivedText kind.name = kind.name := by
  cases kind <;> decide +kernel

private theorem received_enforcement (enforcement : ConstraintEnforcement) :
    receivedText enforcement.name = enforcement.name := by
  cases enforcement <;> decide +kernel

private theorem received_validation (validation : ConstraintValidation) :
    receivedText validation.name = validation.name := by
  cases validation <;> decide +kernel

section

variable (codecs : Codecs Text)

/-- The expression of a CHECK. -/
def ConstraintRecordSpec.expression (spec : ConstraintRecordSpec) (sql : Text) : SqlExpression :=
  ⟨sql, rowScalarExpression, spec.schemaPath, checkContext⟩

private theorem decode_check (carry : codecs.Carry) (spec : ConstraintRecordSpec)
    (check : Option Bytes) (made : encodeCheck codecs spec = .ok check) :
    decodeOptional codecs.sqlExpression check =
      .ok (spec.checkSql.map fun sql => (spec.expression sql).received) := by
  unfold encodeCheck at made
  cases checkSql : spec.checkSql with
  | none =>
      rw [checkSql] at made
      cases made
      rfl
  | some sql =>
      rw [checkSql] at made
      obtain ⟨bytes, encoded, made⟩ := except_bind_ok _ _ _ made
      cases made
      simp only [decodeOptional, carry.sqlExpression _ _ encoded]
      rfl

private theorem decode_foreign (carry : codecs.Carry) (references : Option References)
    (foreign : Option Bytes) (made : encodeForeign codecs references = .ok foreign) :
    ∃ definition : Option ForeignKeyDefinition,
      decodeOptional codecs.foreignKeyDefinition foreign = .ok definition ∧
      decodeOptional codecs.catalogObjectRef (definition.map (·.referencedTable)) =
        .ok (references.map fun ref =>
          (⟨text "table", ref.schemaPath, ref.table, none⟩ : CatalogObjectRef).received) ∧
      ∀ ref ∈ references, ∃ table, definition =
        some (ForeignKeyDefinition.received ⟨table, ref.columns, text "SIMPLE", text "NO_ACTION",
          text "NO_ACTION"⟩) := by
  cases references with
  | none =>
      cases made
      exact ⟨none, rfl, rfl, by simp⟩
  | some ref =>
      obtain ⟨table, encodedTable, made⟩ := except_bind_ok _ _ _ made
      obtain ⟨bytes, encoded, made⟩ := except_bind_ok _ _ _ made
      cases made
      refine ⟨some (ForeignKeyDefinition.received ⟨table, ref.columns, text "SIMPLE",
        text "NO_ACTION", text "NO_ACTION"⟩), ?_, ?_, fun other same => ⟨table, ?_⟩⟩
      · simp only [decodeOptional, carry.foreignKeyDefinition _ _ encoded]
        rfl
      · simp only [Option.map_some, decodeOptional, ForeignKeyDefinition.received,
          carry.catalogObjectRef _ _ encodedTable]
        rfl
      · cases same
        rfl

private theorem decode_referenced (carry : codecs.Carry) (references : Option References)
    (referenced : Option Bytes)
    (made : encodeReferenced codecs references = .ok referenced) :
    decodeOptional codecs.catalogObjectRef referenced =
      .ok (references.map fun ref => (⟨text "constraint", ref.schemaPath, ref.constraintId,
        some ref.table⟩ : CatalogObjectRef).received) := by
  cases references with
  | none =>
      cases made
      rfl
  | some ref =>
      obtain ⟨bytes, encoded, made⟩ := except_bind_ok _ _ _ made
      cases made
      simp only [decodeOptional, carry.catalogObjectRef _ _ encoded]
      rfl

/-- The CHECK expression that the bytes of a record hold. -/
def HoldsCheck (bytes : Bytes) (check : Option SqlExpression) : Prop :=
  ∃ info definition, codecs.constraintInfo.decode bytes = .ok info ∧
    codecs.constraintDefinition.decode info.definition = .ok definition ∧
    decodeOptional codecs.sqlExpression definition.checkExpression = .ok check

/-- What is read of an encoded record: the record itself, and its CHECK expression. -/
private theorem read_encoded (carry : codecs.Carry) (spec : ConstraintRecordSpec) (bytes : Bytes)
    (encoded : encodeRecord codecs spec = .ok bytes) :
    readConstraintRecord codecs bytes = .ok spec.received.view ∧
      HoldsCheck codecs bytes
        (spec.checkSql.map fun sql => (spec.expression sql).received) := by
  obtain ⟨check, madeCheck, encoded⟩ := except_bind_ok _ _ _ encoded
  obtain ⟨foreign, madeForeign, encoded⟩ := except_bind_ok _ _ _ encoded
  obtain ⟨ref, madeRef, encoded⟩ := except_bind_ok _ _ _ encoded
  obtain ⟨definition, madeDefinition, encoded⟩ := except_bind_ok _ _ _ encoded
  obtain ⟨referenced, madeReferenced, encoded⟩ := except_bind_ok _ _ _ encoded
  have readInfo := carry.constraintInfo _ _ encoded
  have readRef := carry.catalogObjectRef _ _ madeRef
  have readDefinition := carry.constraintDefinition _ _ madeDefinition
  have readCheck := decode_check codecs carry spec check madeCheck
  obtain ⟨held, readForeign, readTarget, isForeign⟩ :=
    decode_foreign codecs carry spec.references foreign madeForeign
  have readReferenced := decode_referenced codecs carry spec.references referenced madeReferenced
  refine ⟨?_, _, _, readInfo, readDefinition, readCheck⟩
  simp only [readConstraintRecord, readInfo, readDefinition, readRef, ConstraintInfo.received,
    ConstraintDefinition.received, CatalogObjectRef.received, readCheck, readForeign, readTarget,
    readReferenced, except_ok_bind, received_kind, received_enforcement, received_validation]
  have sql : (spec.checkSql.map fun sql => (spec.expression sql).received).map (·.sql) =
      spec.checkSql.map receivedText := by
    cases spec.checkSql <;> rfl
  rw [sql]
  cases references : spec.references with
  | none =>
      simp only [ConstraintRecordSpec.view, ConstraintRecordSpec.received, references]
      cases held <;> rfl
  | some ref =>
      obtain ⟨table, rfl⟩ := isForeign ref references
      simp only [ConstraintRecordSpec.view, ConstraintRecordSpec.received, references]
      rfl

end

/-! ## Checks on their own -/

private theorem forM_ok {Item : Type} (check : Item → Except Text Unit) (items : List Item) :
    items.forM check = .ok () ↔ ∀ item ∈ items, check item = .ok () := by
  induction items with
  | nil => exact iff_of_true rfl (by simp)
  | cons item rest ih =>
      have unfolded : (item :: rest).forM check = (check item >>= fun _ => rest.forM check) := rfl
      rw [unfolded, List.forall_mem_cons, ← ih]
      constructor
      · intro passed
        obtain ⟨_, here, later⟩ := except_bind_ok _ _ _ passed
        exact ⟨here, later⟩
      · rintro ⟨here, later⟩
        rw [here, except_ok_bind]
        exact later

private theorem identifier_renamed (value what other : Text)
    (passed : identifier value what = .ok ()) : identifier value other = .ok () :=
  (throwIf_eq_ok _ _).mpr ((throwIf_eq_ok _ _).mp passed)

private theorem checkPathsFrom_renamed (paths : List (List Text)) (what other : Text)
    (topLevelOnly : Bool) (seen : List Text)
    (passed : checkPathsFrom what topLevelOnly seen paths = .ok ()) :
    checkPathsFrom other topLevelOnly seen paths = .ok () := by
  induction paths generalizing seen with
  | nil => rfl
  | cons path rest ih =>
      unfold checkPathsFrom at passed ⊢
      obtain ⟨_, sized, passed⟩ := except_bind_ok _ _ _ passed
      obtain ⟨_, level, passed⟩ := except_bind_ok _ _ _ passed
      obtain ⟨_, named, passed⟩ := except_bind_ok _ _ _ passed
      obtain ⟨_, fresh, passed⟩ := except_bind_ok _ _ _ passed
      have parts := (forM_ok _ _).mpr fun part member =>
        identifier_renamed part _ (other ++ text ": column path component")
          ((forM_ok _ _).mp named part member)
      rw [(throwIf_eq_ok _ _).mpr ((throwIf_eq_ok _ _).mp sized), except_ok_bind,
        (throwIf_eq_ok _ _).mpr ((throwIf_eq_ok _ _).mp level), except_ok_bind, parts,
        except_ok_bind, (throwIf_eq_ok _ _).mpr ((throwIf_eq_ok _ _).mp fresh), except_ok_bind]
      exact ih _ passed

/-- What is checked does not depend on what the paths are called. -/
private theorem checkPaths_renamed (paths : List (List Text)) (what other : Text)
    (topLevelOnly : Bool) (passed : checkPaths paths what topLevelOnly = .ok ()) :
    checkPaths paths other topLevelOnly = .ok () := by
  obtain ⟨_, few, passed⟩ := except_bind_ok _ _ _ passed
  rw [checkPaths, (throwIf_eq_ok _ _).mpr ((throwIf_eq_ok _ _).mp few), except_ok_bind]
  exact checkPathsFrom_renamed paths what other topLevelOnly [] passed

/-- Paths that are checked for the top level have one component. -/
private theorem topLevel_of_checkPathsFrom (paths : List (List Text)) (what : Text)
    (seen : List Text) (passed : checkPathsFrom what true seen paths = .ok ()) :
    ∀ path ∈ paths, path.length = 1 := by
  induction paths generalizing seen with
  | nil => simp
  | cons path rest ih =>
      unfold checkPathsFrom at passed
      obtain ⟨_, _, passed⟩ := except_bind_ok _ _ _ passed
      obtain ⟨_, level, passed⟩ := except_bind_ok _ _ _ passed
      obtain ⟨_, _, passed⟩ := except_bind_ok _ _ _ passed
      obtain ⟨_, _, passed⟩ := except_bind_ok _ _ _ passed
      have single : path.length = 1 :=
        not_not.mp fun several => (throwIf_eq_ok _ _).mp level ⟨rfl, several⟩
      exact List.forall_mem_cons.mpr ⟨single, ih _ passed⟩

/-! ## What was built -/

/-- What the builder made sure of. -/
private structure Built (toLowerCase toUpperCase : Text → Text) (spec : ConstraintRecordSpec) :
    Prop where
  schema : spec.schemaPath.length = 1
  enforced : spec.enforcement = .enforced
  allRows : spec.validation = .allRows
  check : spec.kind = .check ↔ spec.checkSql.isSome
  notNull : spec.kind = .notNull → spec.columns.length = 1
  foreign : spec.kind = .foreignKey ↔ spec.references.isSome
  paths : checkPaths spec.columns (constraintName spec) (spec.kind ≠ .notNull) = .ok ()
  expression : ∀ sql ∈ spec.checkSql,
    Sql.validateNumericCheckSql toLowerCase toUpperCase sql (fun _ => .ok ()) = .ok ()
  referenced : ∀ ref ∈ spec.references, ref.columns.length = spec.columns.length ∧
    ref.schemaPath = spec.schemaPath ∧
    checkPaths ref.columns (constraintName spec ++ text " (referenced)") true = .ok ()

private theorem built_of_checkSpec (toLowerCase toUpperCase : Text → Text)
    (spec : ConstraintRecordSpec) (passed : checkSpec toLowerCase toUpperCase spec = .ok ()) :
    Built toLowerCase toUpperCase spec := by
  obtain ⟨_, shape, passed⟩ := except_bind_ok _ _ _ passed
  obtain ⟨_, sql, references⟩ := except_bind_ok _ _ _ passed
  unfold checkShape at shape
  obtain ⟨_, _, shape⟩ := except_bind_ok _ _ _ shape
  obtain ⟨_, _, shape⟩ := except_bind_ok _ _ _ shape
  obtain ⟨_, schema, shape⟩ := except_bind_ok _ _ _ shape
  obtain ⟨_, _, shape⟩ := except_bind_ok _ _ _ shape
  obtain ⟨_, attested, shape⟩ := except_bind_ok _ _ _ shape
  have shape : (do
      throwIf (¬(spec.kind = .check ↔ spec.checkSql.isSome))
        (text "checkSql is required for CHECK and only CHECK")
      throwIf (if spec.kind = .check then spec.columns ≠ [] else spec.columns = [])
        (if spec.kind = .check then text "CHECK takes no column paths"
          else spec.kind.name ++ text " requires column paths")
      throwIf (spec.kind = .notNull ∧ spec.columns.length ≠ 1)
        (text "NOT_NULL requires exactly one column path")
      throwIf (¬(spec.kind = .foreignKey ↔ spec.references.isSome))
        (text "references is required for FOREIGN_KEY and only FOREIGN_KEY")
      checkPaths spec.columns (constraintName spec) (spec.kind ≠ .notNull) :
        Except Text Unit) = .ok () := by
    cases named : spec.declaredName with
    | none =>
        rw [named] at shape
        exact shape
    | some declaredName =>
        rw [named] at shape
        obtain ⟨_, _, shape⟩ := except_bind_ok _ _ _ shape
        exact shape
  obtain ⟨_, check, shape⟩ := except_bind_ok _ _ _ shape
  obtain ⟨_, _, shape⟩ := except_bind_ok _ _ _ shape
  obtain ⟨_, notNull, shape⟩ := except_bind_ok _ _ _ shape
  obtain ⟨_, foreign, paths⟩ := except_bind_ok _ _ _ shape
  have attested := not_or.mp ((throwIf_eq_ok _ _).mp attested)
  exact
    { schema := not_not.mp ((throwIf_eq_ok _ _).mp schema)
      enforced := not_not.mp attested.1
      allRows := not_not.mp attested.2
      check := not_not.mp ((throwIf_eq_ok _ _).mp check)
      notNull := fun isNotNull => not_not.mp fun several =>
        (throwIf_eq_ok _ _).mp notNull ⟨isNotNull, several⟩
      foreign := not_not.mp ((throwIf_eq_ok _ _).mp foreign)
      paths := paths
      expression := fun held isHeld => by
        rw [checkCheckSql, isHeld] at sql
        cases valid : Sql.validateNumericCheckSql toLowerCase toUpperCase held fun _ => .ok () with
        | ok => rfl
        | error fault => simp [valid] at sql
      referenced := fun ref isRef => by
        rw [isRef] at references
        obtain ⟨_, arity, references⟩ := except_bind_ok _ _ _ references
        obtain ⟨_, schema, references⟩ := except_bind_ok _ _ _ references
        obtain ⟨_, _, references⟩ := except_bind_ok _ _ _ references
        obtain ⟨_, _, references⟩ := except_bind_ok _ _ _ references
        exact ⟨not_not.mp ((throwIf_eq_ok _ _).mp arity),
          stringifyTexts_inj _ _ (not_not.mp ((throwIf_eq_ok _ _).mp schema)), references⟩ }

/-! ## Columns of the table -/

private theorem onlyOne_filter (fields : List Field) (keep : Field → Prop) [DecidablePred keep]
    (field : Field) (only : OnlyOne fields keep field) :
    ∃ index : Nat, ((List.range fields.length).filter fun index =>
        fields[index]?.any fun field => keep field) = [index] ∧
      fields[index]? = some field ∧ keep field := by
  obtain ⟨index, here, kept, unique⟩ := only
  refine ⟨index, ?_, here, kept⟩
  have nodup := (List.nodup_range (n := fields.length)).filter fun index =>
    fields[index]?.any fun field => keep field
  refine List.perm_singleton.mp ((List.perm_ext_iff_of_nodup nodup (List.nodup_singleton _)).mpr
    fun other => ?_)
  rw [List.mem_filter, List.mem_range, List.mem_singleton]
  constructor
  · rintro ⟨_, found⟩
    obtain ⟨held, there, holds⟩ := (Option.any_eq_true _ _).mp found
    exact unique other held there (of_decide_eq_true holds)
  · rintro rfl
    refine ⟨(List.getElem?_eq_some_iff.mp here).1, ?_⟩
    rw [here]
    exact decide_eq_true kept

private theorem findRowId_ok (table : Text) (fields : List Field)
    (rowIds : ∀ (first second : Nat) (left right : Field), fields[first]? = some left →
      fields[second]? = some right → isRowIdField left = true → isRowIdField right = true →
        first = second) :
    ∃ rowId, findRowId table fields = .ok rowId ∧
      ∀ index ∈ rowId, ∀ field, fields[index]? = some field → isRowIdField field = true := by
  have each : ∀ index ∈ (List.range fields.length).filter fun index =>
      fields[index]?.any isRowIdField, ∃ field, fields[index]? = some field ∧
        isRowIdField field = true := fun index member =>
    (Option.any_eq_true _ _).mp (List.mem_filter.mp member).2
  have nodup := (List.nodup_range (n := fields.length)).filter fun index =>
    fields[index]?.any isRowIdField
  unfold findRowId
  generalize ((List.range fields.length).filter fun index =>
    fields[index]?.any isRowIdField) = found at each nodup
  rcases found with _ | ⟨index, _ | ⟨other, rest⟩⟩
  · exact ⟨none, rfl, by simp⟩
  · refine ⟨some index, rfl, fun same isSame field here => ?_⟩
    cases isSame
    obtain ⟨held, there, isRowId⟩ := each index List.mem_cons_self
    rw [there] at here
    cases here
    exact isRowId
  · obtain ⟨left, first, leftRowId⟩ := each index List.mem_cons_self
    obtain ⟨right, second, rightRowId⟩ := each other (List.mem_cons_of_mem _ List.mem_cons_self)
    have same := rowIds index other left right first second leftRowId rightRowId
    exact absurd same (List.ne_of_not_mem_cons (List.nodup_cons.mp nodup).1)

section

variable (served : Served) (where_ : Text)

/-- The row id of the table is a row-id column. -/
private abbrev Served.Settled (served : Served) : Prop :=
  ∀ index ∈ served.rowId, ∀ field, served.fields[index]? = some field → isRowIdField field = true

private theorem resolveTop_ok (settled : served.Settled) (required : Prop) (path : List Text)
    (top : Field) (column : NamesColumn served.fields required path top) :
    ∃ index, resolveTop served where_ path = .ok index ∧ served.fields[index]? = some top := by
  obtain ⟨index, found, here, _⟩ := onlyOne_filter served.fields _ top column.only
  have notRowId : served.rowId ≠ some index := fun same => by
    have isRowId := settled index same top here
    rw [column.notRowId] at isRowId
    cases isRowId
  refine ⟨index, ?_, here⟩
  rw [resolveTop, fieldsByExactName, found]
  exact if_neg notRowId

private theorem descend_ok (path : List Text) (field found : Field) (names : List Text)
    (reaches : LeadsTo field names found) : descend where_ path field names = .ok found := by
  induction reaches with
  | here field => rfl
  | inside field found child children name rest struct only _ ih =>
      obtain ⟨index, named, here, _⟩ := onlyOne_filter children _ child only
      rw [descend, struct]
      simp only [fieldsByExactName, named, List.map_cons, List.map_nil, here]
      exact ih

private theorem validateNotNull_ok (settled : served.Settled) (record : ConstraintRecordView)
    (seen : Validated) (single : record.columns.length = 1) (columns : ∀ path ∈ record.columns,
      ∃ top, NamesColumn served.fields True path top) :
    ∃ after, validateNotNull served record seen = .ok after ∧ after.records = seen.records := by
  obtain ⟨path, isPath⟩ := List.length_eq_one_iff.mp single
  obtain ⟨top, column⟩ := columns path (isPath ▸ List.mem_singleton_self _)
  obtain ⟨index, resolved, here⟩ :=
    resolveTop_ok served (recordPlace served.table record) settled True path top column
  obtain ⟨found, reaches⟩ := column.reaches
  have descends := descend_ok (recordPlace served.table record) path top found path.tail reaches
  have stored : ¬(path.length = 1 ∧ isGeneratedField found = true) := by
    rintro ⟨one, generated⟩
    obtain ⟨name, rfl⟩ := List.length_eq_one_iff.mp one
    cases reaches
    rw [column.stored trivial one] at generated
    cases generated
  refine ⟨{ seen with required := addText seen.required (stringifyTexts path) }, ?_, rfl⟩
  rw [validateNotNull, (throwIf_eq_ok _ _).mpr (not_not.mpr single), except_ok_bind]
  simp only [isPath, List.headD_cons, resolved, except_ok_bind, here, descends,
    (throwIf_eq_ok _ _).mpr stored]

private theorem validateKey_ok (settled : served.Settled) (record : ConstraintRecordView)
    (primary : Bool) (seen : Validated) (none : seen.primaryKeys = 0)
    (columns : ∀ path ∈ record.columns,
      path.length = 1 ∧ ∃ top, NamesColumn served.fields (primary = true) path top) :
    ∃ after, validateKey served record primary seen = .ok after ∧ after.records = seen.records := by
  have resolves : resolveKey served (recordPlace served.table record) primary record.columns =
      .ok () := by
    refine (forM_ok _ _).mpr fun path member => ?_
    obtain ⟨one, top, column⟩ := columns path member
    obtain ⟨index, resolved, here⟩ :=
      resolveTop_ok served (recordPlace served.table record) settled _ path top column
    rw [resolved, except_ok_bind, here]
    refine (throwIf_eq_ok _ _).mpr ?_
    rintro ⟨isPrimary, generated⟩
    rw [Option.any_some, column.stored isPrimary one] at generated
    cases generated
  rw [validateKey, resolves, except_ok_bind]
  cases primary with
  | true =>
      rw [if_pos rfl, (throwIf_eq_ok _ _).mpr (not_not.mpr none), except_ok_bind]
      exact ⟨_, rfl, rfl⟩
  | false => exact ⟨seen, rfl, rfl⟩

private theorem validateForeignKey_ok (settled : served.Settled) (record : ConstraintRecordView)
    (ref : References) (what : Text) (isRef : record.references = some ref.view)
    (schema : ref.schemaPath = served.schemaPath) (one : served.schemaPath.length = 1)
    (arity : ref.columns.length = record.columns.length)
    (paths : checkPaths ref.columns what true = .ok ())
    (columns : ∀ path ∈ record.columns, ∃ top, NamesColumn served.fields False path top) :
    validateForeignKey served record = .ok () := by
  have resolves : (record.columns.forM fun path => do
      let _ ← resolveTop served (recordPlace served.table record) path) =
        (.ok () : Except Text Unit) := by
    refine (forM_ok _ _).mpr fun path member => ?_
    obtain ⟨top, column⟩ := columns path member
    obtain ⟨index, resolved, _⟩ :=
      resolveTop_ok served (recordPlace served.table record) settled _ path top column
    rw [resolved]
    rfl
  have referenced := checkPaths_renamed ref.columns what (text "FOREIGN_KEY referenced") true paths
  unfold validateForeignKey
  dsimp only
  rw [resolves, except_ok_bind, isRef]
  simp only [References.view, schema, Option.map_some]
  rw [(throwIf_eq_ok _ _).mpr (by simp), except_ok_bind,
    (throwIf_eq_ok _ _).mpr (by simp [one]), except_ok_bind,
    (throwIf_eq_ok _ _).mpr (not_not.mpr arity), except_ok_bind, referenced]
  rfl

end

/-! ## CHECK expressions -/

section

variable (toLowerCase toUpperCase : Text → Text) (codecs : Codecs Text) (served : Served)

private theorem resolveOperand_ok (settled : served.Settled) (name : Text) (column : Field)
    (numeric : NumericColumn toLowerCase served.fields name column) :
    resolveOperand toLowerCase served name = .ok () := by
  obtain ⟨index, found, here, _⟩ := onlyOne_filter served.fields _ column numeric.only
  have notRowId : served.rowId ≠ some index := fun same => by
    have isRowId := settled index same column here
    rw [numeric.notRowId] at isRowId
    cases isRowId
  obtain ⟨type, listed, primitive⟩ := numeric.numeric
  unfold resolveOperand
  simp only [found, if_neg notRowId, here, numeric.plain, numeric.stored, primitive,
    Option.any_some, List.contains_iff_mem.mpr listed]
  rfl

private theorem checkOperand_ok (resolve : Text → Except Sql.Fault Unit) (node : Sql.ScalarNode)
    (shaped : Sql.checkOperand (fun _ => .ok ()) node = .ok ())
    (columns : ∀ name, [name] ∈ node.references → resolve name = .ok ()) :
    Sql.checkOperand resolve node = .ok () := by
  cases node with
  | constant type value =>
      cases type with
      | null | boolean | varchar => cases shaped
      | _ => rfl
  | column names =>
      rcases names with _ | ⟨name, _ | ⟨other, rest⟩⟩
      · cases shaped
      · exact columns name (by simp [Sql.ScalarNode.references])
      · cases shaped
  | _ => cases shaped

private theorem validateNumericCheckSql_ok (sql : Text) (resolve : Text → Except Sql.Fault Unit)
    (shaped : Sql.validateNumericCheckSql toLowerCase toUpperCase sql (fun _ => .ok ()) = .ok ())
    (columns : ∀ node, Sql.parseScalarSql toLowerCase toUpperCase sql = .ok node →
      ∀ name, [name] ∈ node.references → resolve name = .ok ()) :
    Sql.validateNumericCheckSql toLowerCase toUpperCase sql resolve = .ok () := by
  obtain ⟨node, parsed, shaped⟩ := except_bind_ok _ _ _ shaped
  have resolves := columns node parsed
  rw [Sql.validateNumericCheckSql, parsed, except_ok_bind]
  cases node with
  | comparison operator left right =>
      obtain ⟨_, leftShaped, rightShaped⟩ := except_bind_ok _ _ _ shaped
      have onLeft := checkOperand_ok resolve left leftShaped fun name member =>
        resolves name (List.mem_append_left _ member)
      have onRight := checkOperand_ok resolve right rightShaped fun name member =>
        resolves name (List.mem_append_right _ member)
      simp only [onLeft, except_ok_bind, onRight]
  | _ => cases shaped

private theorem validateCheckRecord_ok (settled : served.Settled) (where_ : Text) (bytes : Bytes)
    (sql : Text) (holds : HoldsCheck codecs bytes
      (some ⟨sql, rowScalarExpression, served.schemaPath, checkContext⟩))
    (shaped : Sql.validateNumericCheckSql toLowerCase toUpperCase sql (fun _ => .ok ()) = .ok ())
    (operands : ∀ node, Sql.parseScalarSql toLowerCase toUpperCase sql = .ok node →
      ∀ name, [name] ∈ node.references →
        ∃ column, NumericColumn toLowerCase served.fields name column) :
    validateCheckRecord toLowerCase toUpperCase codecs served where_ bytes = .ok () := by
  obtain ⟨info, definition, readInfo, readDefinition, readCheck⟩ := holds
  have readExpression : codecs.sqlExpression.decode (definition.checkExpression.getD []) =
      .ok ⟨sql, rowScalarExpression, served.schemaPath, checkContext⟩ := by
    cases held : definition.checkExpression with
    | none =>
        rw [held] at readCheck
        cases readCheck
    | some expression =>
        rw [held] at readCheck
        obtain ⟨_, decoded, same⟩ := except_bind_ok _ _ _ readCheck
        cases same
        exact decoded
  have context : ∀ member ∈ contextMembers checkContext, member.2.2 = true := by decide
  have valid := validateNumericCheckSql_ok toLowerCase toUpperCase sql
    (resolveOperand toLowerCase served) shaped fun node parsed name member => by
      obtain ⟨column, numeric⟩ := operands node parsed name member
      exact resolveOperand_ok toLowerCase served settled name column numeric
  rw [validateCheckRecord, readInfo, except_ok_bind, readDefinition, except_ok_bind, readExpression,
    except_ok_bind, (throwIf_eq_ok _ _).mpr (by simp), except_ok_bind,
    (throwIf_eq_ok _ _).mpr (by simp), except_ok_bind,
    (forM_ok _ _).mpr fun member isMember =>
      (throwIf_eq_ok _ _).mpr (by simp [context member isMember]), except_ok_bind]
  simp only [valid]

end

/-! ## Tables -/

private theorem NamesColumn.mono {fields : List Field} {required fewer : Prop} {path : List Text}
    {top : Field} (column : NamesColumn fields required path top) (less : fewer → required) :
    NamesColumn fields fewer path top :=
  ⟨column.only, column.notRowId, column.reaches, fun isRequired => column.stored (less isRequired)⟩

private theorem checkIdentity_ok (toLowerCase : Text → Text) (served : Served)
    (record : ConstraintRecordView) (seen : Validated) (one : served.schemaPath.length = 1)
    (schema : record.schemaPath = served.schemaPath) (table : record.table = served.table)
    (fresh : record.id ∉ seen.ids) (unlabelled : seen.labels = [])
    (enforced : record.enforcement = text "ENFORCED")
    (allRows : record.validation = text "ALL_ROWS")
    (paths : checkPaths record.columns record.kind (record.kind ≠ text "NOT_NULL") = .ok ()) :
    ∃ after, checkIdentity toLowerCase served record seen = .ok after ∧
      after.records = seen.records ∧ after.primaryKeys = seen.primaryKeys := by
  obtain ⟨labels, noted⟩ : ∃ labels, noteLabel toLowerCase (recordPlace served.table record)
      record.declaredName seen.labels = .ok labels := by
    rw [unlabelled]
    cases record.declaredName with
    | none => exact ⟨_, rfl⟩
    | some declaredName => exact ⟨_, rfl⟩
  refine ⟨{ seen with ids := addText seen.ids record.id, labels := labels }, ?_, rfl, rfl⟩
  unfold checkIdentity
  dsimp only
  rw [(throwIf_eq_ok _ _).mpr (by simp [one, schema, table]), except_ok_bind,
    (throwIf_eq_ok _ _).mpr fresh, except_ok_bind, noted, except_ok_bind,
    (throwIf_eq_ok _ _).mpr (by simp [enforced, allRows]), except_ok_bind, paths]
  rfl

private theorem topLevel_of_built (toLowerCase toUpperCase : Text → Text)
    (spec : ConstraintRecordSpec) (built : Built toLowerCase toUpperCase spec)
    (notNotNull : spec.kind ≠ .notNull) : ∀ path ∈ spec.columns, path.length = 1 := by
  have paths := built.paths
  rw [decide_eq_true notNotNull] at paths
  obtain ⟨_, _, paths⟩ := except_bind_ok _ _ _ paths
  exact topLevel_of_checkPathsFrom spec.columns _ [] paths

/-- The table that the constraint is on, as it is served. -/
private abbrev ConstraintRecordSpec.served (spec : ConstraintRecordSpec) (fields : List Field)
    (rowId : Option Nat) : Served :=
  ⟨spec.table, spec.schemaPath, fields, rowId⟩

section

variable (toLowerCase toUpperCase : Text → Text) (codecs : Codecs Text)
  (spec : ConstraintRecordSpec) (fields : List Field) (rowId : Option Nat)

/-- The table accepts the constraint, whichever its kind. -/
private theorem validateKind_ok (built : Built toLowerCase toUpperCase spec)
    (settled : (spec.served fields rowId).Settled)
    (has : HasColumns toLowerCase toUpperCase spec fields) (bytes : Bytes)
    (holds : HoldsCheck codecs bytes (spec.checkSql.map spec.expression)) (seen : Validated)
    (first : seen.primaryKeys = 0) :
    ∃ after, validateKind toLowerCase toUpperCase codecs (spec.served fields rowId)
        bytes spec.view seen = .ok after ∧ after.records = seen.records := by
  have named (kind : ConstraintKind) (isKind : spec.kind = kind) : spec.view.kind = kind.name :=
    congrArg ConstraintKind.name isKind
  unfold validateKind
  dsimp only
  cases kind : spec.kind with
  | check =>
      obtain ⟨sql, isSql⟩ := Option.isSome_iff_exists.mp (built.check.mp kind)
      rw [isSql] at holds
      have valid := validateCheckRecord_ok toLowerCase toUpperCase codecs
        (spec.served fields rowId) settled (recordPlace spec.table spec.view) bytes
        sql holds (built.expression sql isSql) (has.operands sql isSql)
      have given : spec.view.checkSql ≠ none := fun missing =>
        Option.some_ne_none sql (isSql.symm.trans missing)
      rw [named _ kind, if_pos rfl, (throwIf_eq_ok _ _).mpr given, except_ok_bind, valid,
        except_ok_bind]
      exact ⟨seen, rfl, rfl⟩
  | notNull =>
      rw [named _ kind, if_neg (by decide), if_pos rfl]
      refine validateNotNull_ok _ settled spec.view seen (built.notNull kind) fun path member => ?_
      obtain ⟨top, column⟩ := has.columns path member
      exact ⟨top, column.mono fun _ => .inl kind⟩
  | primaryKey =>
      rw [named _ kind, if_neg (by decide), if_neg (by decide), if_pos rfl]
      refine validateKey_ok _ settled spec.view true seen first fun path member => ?_
      obtain ⟨top, column⟩ := has.columns path member
      exact ⟨topLevel_of_built toLowerCase toUpperCase spec built (by simp [kind]) path member, top,
        column.mono fun _ => .inr kind⟩
  | unique =>
      rw [named _ kind, if_neg (by decide), if_neg (by decide), if_neg (by decide), if_pos rfl]
      refine validateKey_ok _ settled spec.view false seen first fun path member => ?_
      obtain ⟨top, column⟩ := has.columns path member
      exact ⟨topLevel_of_built toLowerCase toUpperCase spec built (by simp [kind]) path member, top,
        column.mono fun impossible => absurd impossible Bool.false_ne_true⟩
  | foreignKey =>
      obtain ⟨ref, isRef⟩ := Option.isSome_iff_exists.mp (built.foreign.mp kind)
      obtain ⟨arity, schema, paths⟩ := built.referenced ref isRef
      have isView : spec.view.references = some ref.view :=
        congrArg (Option.map References.view) isRef
      have valid := validateForeignKey_ok (spec.served fields rowId) settled
        spec.view ref _ isView schema built.schema arity paths fun path member => by
          obtain ⟨top, column⟩ := has.columns path member
          exact ⟨top, column.mono False.elim⟩
      rw [named _ kind, if_neg (by decide), if_neg (by decide), if_neg (by decide),
        if_neg (by decide), if_pos rfl, valid, except_ok_bind]
      exact ⟨seen, rfl, rfl⟩

private theorem table_accepts (built : Built toLowerCase toUpperCase spec)
    (has : HasColumns toLowerCase toUpperCase spec fields) (bytes : Bytes)
    (reads : readConstraintRecord codecs bytes = .ok spec.view)
    (holds : HoldsCheck codecs bytes (spec.checkSql.map spec.expression)) :
    ∃ validated, validateTableConstraints toLowerCase toUpperCase codecs spec.table spec.schemaPath
        fields [bytes] = .ok validated ∧ validated.records = [spec.view] := by
  obtain ⟨rowId, found, settled⟩ := findRowId_ok spec.table fields has.rowIds
  have levels : ∀ kind : ConstraintKind,
      decide (kind.name ≠ text "NOT_NULL") = decide (kind ≠ .notNull) := by
    intro kind
    cases kind <;> decide
  have level : decide (spec.view.kind ≠ text "NOT_NULL") = decide (spec.kind ≠ .notNull) :=
    levels spec.kind
  have paths : checkPaths spec.view.columns spec.view.kind (spec.view.kind ≠ text "NOT_NULL") =
      .ok () := by
    rw [level]
    exact checkPaths_renamed _ _ _ _ built.paths
  obtain ⟨noted, identified, records, primaryKeys⟩ := checkIdentity_ok toLowerCase
    (spec.served fields rowId) spec.view .empty built.schema rfl rfl
    List.not_mem_nil rfl (congrArg ConstraintEnforcement.name built.enforced)
    (congrArg ConstraintValidation.name built.allRows) paths
  obtain ⟨after, valid, kept⟩ := validateKind_ok toLowerCase toUpperCase codecs spec fields rowId
    built settled has bytes holds noted primaryKeys
  refine ⟨{ after with records := after.records ++ [spec.view] }, ?_, ?_⟩
  · rw [validateTableConstraints, (throwIf_eq_ok _ _).mpr (by simp), except_ok_bind, found,
      except_ok_bind, List.foldlM_cons, validateRecord, reads]
    simp only [Except.mapError, except_ok_bind, identified, valid, List.foldlM_nil]
    rfl
  · rw [kept, records]
    rfl

end

private theorem received_expression (spec : ConstraintRecordSpec)
    (survive : ∀ value ∈ spec.texts, SurvivesUtf8 value) (sql : Text)
    (isSql : spec.checkSql = some sql) : (spec.expression sql).received = spec.expression sql := by
  have ofSql : receivedText sql = sql := (receivedText_eq_iff sql).mpr
    (survive sql (by simp [ConstraintRecordSpec.texts, isSql]))
  have ofSchema : spec.schemaPath.map receivedText = spec.schemaPath := (map_received_iff _).mpr
    fun value member => survive value (by simp [ConstraintRecordSpec.texts, member])
  have profile : receivedText rowScalarExpression = rowScalarExpression := by decide +kernel
  have context : checkContext.received = checkContext := by decide +kernel
  simp only [ConstraintRecordSpec.expression, SqlExpression.received, ofSql, ofSchema, profile,
    context]

/-- A built record reads back as its constraint, and every table with the columns that the
constraint names accepts it, exactly when UTF-8 keeps the texts of the constraint. -/
theorem constraint_record_kept_iff (toLowerCase toUpperCase : Text → Text) (codecs : Codecs Text)
    (carry : codecs.Carry) (spec : ConstraintRecordSpec) (bytes : Bytes)
    (success : constraintRecord toLowerCase toUpperCase codecs spec = .ok bytes) :
    (readConstraintRecord codecs bytes = .ok spec.view ∧
        ∀ fields, HasColumns toLowerCase toUpperCase spec fields →
          ∃ validated, validateTableConstraints toLowerCase toUpperCase codecs spec.table
            spec.schemaPath fields [bytes] = .ok validated ∧ validated.records = [spec.view]) ↔
      ∀ value ∈ spec.texts, SurvivesUtf8 value := by
  obtain ⟨_, passed, encoded⟩ := except_bind_ok _ _ _ success
  have built := built_of_checkSpec toLowerCase toUpperCase spec passed
  obtain ⟨reads, holds⟩ := read_encoded codecs carry spec bytes encoded
  constructor
  · rintro ⟨same, _⟩
    rw [reads] at same
    exact (received_view_iff spec).mp (Except.ok.inj same)
  · intro survive
    rw [(received_view_iff spec).mpr survive] at reads
    have expression : (spec.checkSql.map fun sql => (spec.expression sql).received) =
        spec.checkSql.map spec.expression := by
      cases isSql : spec.checkSql with
      | none => rfl
      | some sql => exact congrArg some (received_expression spec survive sql isSql)
    rw [expression] at holds
    exact ⟨reads, fun fields has =>
      table_accepts toLowerCase toUpperCase codecs spec fields built has bytes reads holds⟩

/-! ## Samples -/

deriving instance DecidableEq for CatalogObjectRef, ConstraintDefinition, ConstraintInfo

/-- A codec of one record. -/
def oneRecord {Record : Type} [DecidableEq Record] (known : Record) (received : Record → Record) :
    RecordCodec Text Record where
  encode := fun record => if record = known then .ok [] else .error []
  decode := fun _ => .ok (received known)

private theorem oneRecord_carries {Record : Type} [DecidableEq Record] (known : Record)
    (received : Record → Record) : (oneRecord known received).Carries received := by
  intro record bytes encoded
  unfold oneRecord at encoded
  dsimp only at encoded
  split at encoded
  · rename_i same
    rw [same]
    rfl
  · cases encoded

/-- The codecs at the records of a NOT NULL constraint. -/
def codecsOf (spec : ConstraintRecordSpec) : Codecs Text where
  catalogObjectRef := oneRecord ⟨text "constraint", spec.schemaPath, spec.id, some spec.table⟩
    CatalogObjectRef.received
  sqlExpression := ⟨fun _ => .error [], fun _ => .error []⟩
  foreignKeyDefinition := ⟨fun _ => .error [], fun _ => .error []⟩
  constraintDefinition := oneRecord ⟨spec.kind.name, spec.columns, spec.declaredName, none, none⟩
    ConstraintDefinition.received
  constraintInfo := oneRecord ⟨[], [], text "ENFORCED", text "ALL_ROWS", none⟩
    ConstraintInfo.received

private theorem codecsOf_carry (spec : ConstraintRecordSpec) : (codecsOf spec).Carry where
  catalogObjectRef := oneRecord_carries _ _
  sqlExpression := fun record bytes encoded => by cases encoded
  foreignKeyDefinition := fun record bytes encoded => by cases encoded
  constraintDefinition := oneRecord_carries _ _
  constraintInfo := oneRecord_carries _ _

/-- NOT NULL on a field of a struct. -/
def streetRequired (id : Text) : ConstraintRecordSpec where
  schemaPath := [text "main"]
  table := text "people"
  id := id
  kind := .notNull
  columns := [[text "address", text "street"]]
  enforcement := .enforced
  validation := .allRows
  declaredName := none
  checkSql := none
  references := none

def street : Field :=
  ⟨text "street", .utf8, true, .empty⟩

def address : Field :=
  ⟨text "address", .struct [street], true, .empty⟩

private theorem onlyOne_singleton (keep : Field → Prop) (field : Field) (kept : keep field) :
    OnlyOne [field] keep field := by
  refine ⟨0, rfl, kept, fun other held here _ => ?_⟩
  cases other with
  | zero => rfl
  | succ index => cases here

private theorem address_has : HasColumns id id (streetRequired (text "c")) [address] where
  rowIds := fun first second left right here there _ _ => by
    cases first with
    | zero =>
        cases second with
        | zero => rfl
        | succ index => cases there
    | succ index => cases here
  columns := fun path member => by
    cases List.mem_singleton.mp member
    refine ⟨address, onlyOne_singleton _ _ rfl, by decide, ⟨street, ?_⟩, fun _ one => by cases one⟩
    exact .inside address street street [street] _ [] rfl (onlyOne_singleton _ _ rfl)
      (.here street)
  operands := fun sql isSql => by cases isSql

theorem constraint_record_kept_iff_sample :
    readConstraintRecord (codecsOf (streetRequired (text "c"))) [] =
        .ok (streetRequired (text "c")).view ∧
      ∃ validated, validateTableConstraints id id (codecsOf (streetRequired (text "c")))
        (text "people") [text "main"] [address] [[]] = .ok validated ∧
        validated.records = [(streetRequired (text "c")).view] := by
  have survive : ∀ value ∈ (streetRequired (text "c")).texts, SurvivesUtf8 value := by
    simp only [← receivedText_eq_iff]
    decide +kernel
  have success : constraintRecord id id (codecsOf (streetRequired (text "c")))
      (streetRequired (text "c")) = .ok [] := by decide +kernel
  obtain ⟨reads, accepts⟩ := (constraint_record_kept_iff id id _ (codecsOf_carry _)
    (streetRequired (text "c")) [] success).mpr survive
  exact ⟨reads, accepts [address] address_has⟩

/-- A byte order mark in front of the id is accepted and lost. -/
theorem marked_id_lost :
    constraintRecord id id (codecsOf (streetRequired (0xfeff :: text "c")))
        (streetRequired (0xfeff :: text "c")) = .ok [] ∧
      readConstraintRecord (codecsOf (streetRequired (0xfeff :: text "c"))) [] =
        .ok (streetRequired (text "c")).view ∧
      (streetRequired (text "c")).view ≠ (streetRequired (0xfeff :: text "c")).view :=
  ⟨by decide +kernel, by decide +kernel, by decide +kernel⟩

end VgiWorker.Catalog.Constraints
