import VgiWorker.Catalog.ColumnTypes
import VgiWorker.Catalog.SqlColumns
import VgiWorker.Js.JsonProperties

/-!
# Constraint records

The records that state a table's constraints: building one, reading it back, and
the checks a table's records go through when it is served. The codec of the
records is a parameter.
-/

set_option autoImplicit false

namespace VgiWorker.Catalog.Constraints

open VgiWorker.Js VgiWorker.Arrow

/-! ## Records -/

inductive ConstraintKind where
  | notNull
  | primaryKey
  | unique
  | check
  | foreignKey
  deriving DecidableEq

def ConstraintKind.name : ConstraintKind → Text
  | .notNull => text "NOT_NULL"
  | .primaryKey => text "PRIMARY_KEY"
  | .unique => text "UNIQUE"
  | .check => text "CHECK"
  | .foreignKey => text "FOREIGN_KEY"

inductive ConstraintEnforcement where
  | enforced
  | metadataOnly
  deriving DecidableEq

def ConstraintEnforcement.name : ConstraintEnforcement → Text
  | .enforced => text "ENFORCED"
  | .metadataOnly => text "METADATA_ONLY"

inductive ConstraintValidation where
  | allRows
  | futureWrites
  | unvalidated
  deriving DecidableEq

def ConstraintValidation.name : ConstraintValidation → Text
  | .allRows => text "ALL_ROWS"
  | .futureWrites => text "FUTURE_WRITES"
  | .unvalidated => text "UNVALIDATED"

/-- The referenced key of a foreign key, and the constraint that makes it one. -/
structure References where
  schemaPath : List Text
  table : Text
  columns : List (List Text)
  constraintId : Text

structure ConstraintRecordSpec where
  schemaPath : List Text
  table : Text
  id : Text
  kind : ConstraintKind
  columns : List (List Text)
  enforcement : ConstraintEnforcement
  validation : ConstraintValidation
  declaredName : Option Text
  checkSql : Option Text
  references : Option References

structure CatalogObjectRef where
  kind : Text
  schemaPath : List Text
  name : Text
  ownerTable : Option Text

structure EvaluationContext where
  timezone : Text
  collation : Text
  defaultOrder : Text
  defaultNullOrder : Text
  preserveInsertionOrder : Bool
  deriving DecidableEq

structure SqlExpression where
  sql : Text
  profile : Text
  schemaPath : List Text
  evaluationContext : EvaluationContext

structure ForeignKeyDefinition where
  referencedTable : Bytes
  referencedColumnPaths : List (List Text)
  matching : Text
  onUpdate : Text
  onDelete : Text

structure ConstraintDefinition where
  kind : Text
  columnPaths : List (List Text)
  declaredName : Option Text
  checkExpression : Option Bytes
  foreignKey : Option Bytes

structure ConstraintInfo where
  ref : Bytes
  definition : Bytes
  enforcement : Text
  validation : Text
  referencedConstraint : Option Bytes

/-- `encodeASD` and `decodeASD` at one schema. -/
structure RecordCodec (Failure Record : Type) where
  encode : Record → Except Failure Bytes
  decode : Bytes → Except Failure Record

structure Codecs (Failure : Type) where
  catalogObjectRef : RecordCodec Failure CatalogObjectRef
  sqlExpression : RecordCodec Failure SqlExpression
  foreignKeyDefinition : RecordCodec Failure ForeignKeyDefinition
  constraintDefinition : RecordCodec Failure ConstraintDefinition
  constraintInfo : RecordCodec Failure ConstraintInfo

/-- The evaluation context DuckDB accepts for a CHECK expression. -/
def checkContext : EvaluationContext where
  timezone := text "UTC"
  collation := text "binary"
  defaultOrder := text "asc"
  defaultNullOrder := text "nulls_last"
  preserveInsertionOrder := true

def rowScalarExpression : Text :=
  text "vgi.expression.duckdb.scalar.v1"

/-! ## Building -/

def throwIf (condition : Prop) [Decidable condition] (message : Text) : Except Text Unit :=
  if condition then .error message else .ok ()

theorem throwIf_eq_ok (condition : Prop) [Decidable condition] (message : Text) :
    throwIf condition message = .ok () ↔ ¬condition := by
  unfold throwIf
  split
  · rename_i holds
    exact iff_of_false (by simp) (not_not.mpr holds)
  · rename_i fails
    exact iff_of_true rfl fails

def identifier (value what : Text) : Except Text Unit :=
  throwIf (value = [] ∨ 0 ∈ value ∨ 4096 < utf8Length value)
    (what ++ text " must be a nonempty identifier without NUL (at most 4096 bytes)")

def joinPath (path : List Text) : Text :=
  joinText (text ".") path

def checkPathsFrom (what : Text) (topLevelOnly : Bool) (seen : List Text) :
    List (List Text) → Except Text Unit
  | [] => .ok ()
  | path :: rest => do
      throwIf (path.length = 0 ∨ 64 < path.length)
        (what ++ text ": column path must have 1..64 components")
      throwIf (topLevelOnly = true ∧ path.length ≠ 1)
        (what ++ text ": DuckDB reads nested column paths only for NOT_NULL; " ++
          text "name a top-level column")
      path.forM fun part => identifier part (what ++ text ": column path component")
      throwIf (stringifyTexts path ∈ seen)
        (what ++ text ": duplicate column path " ++ joinPath path)
      checkPathsFrom what topLevelOnly (seen ++ [stringifyTexts path]) rest

def checkPaths (paths : List (List Text)) (what : Text) (topLevelOnly : Bool) :
    Except Text Unit := do
  throwIf (1024 < paths.length) (what ++ text ": too many column paths")
  checkPathsFrom what topLevelOnly [] paths

/-- The message of a grammar error. -/
def faultMessage : Sql.Fault → Text
  | .grammarError message => message
  | _ => []

section

variable (toLowerCase toUpperCase : Text → Text) (codecs : Codecs Text)

def objectRef (kind : String) (schemaPath : List Text) (name : Text) (ownerTable : Option Text) :
    Except Text Bytes :=
  codecs.catalogObjectRef.encode ⟨text kind, schemaPath, name, ownerTable⟩

def checkReferences (what : Text) (spec : ConstraintRecordSpec) (ref : References) :
    Except Text Unit := do
  throwIf (ref.columns.length ≠ spec.columns.length)
    (text "foreign key local and referenced arity must match")
  throwIf (stringifyTexts ref.schemaPath ≠ stringifyTexts spec.schemaPath)
    (what ++ text ": DuckDB reads only foreign keys to a table in the same schema")
  identifier ref.table (what ++ text ": referenced table")
  identifier ref.constraintId (what ++ text ": referenced constraintId")
  checkPaths ref.columns (what ++ text " (referenced)") true

def constraintName (spec : ConstraintRecordSpec) : Text :=
  text "constraint '" ++ spec.id ++ text "' on '" ++ spec.table ++ text "'"

/-- What `constraintRecord` checks about names, attestation and arity. -/
def checkShape (spec : ConstraintRecordSpec) : Except Text Unit := do
  let what := constraintName spec
  throwIf (spec.id = [] ∨ 0 ∈ spec.id) (text "constraint id must be nonempty without NUL")
  identifier spec.table (text "table")
  throwIf (spec.schemaPath.length ≠ 1) (what ++ text ": DuckDB reads only one-component schema paths")
  identifier (spec.schemaPath.headD []) (text "schema")
  throwIf (spec.enforcement ≠ .enforced ∨ spec.validation ≠ .allRows)
    (what ++ text " is " ++ spec.enforcement.name ++ text "/" ++ spec.validation.name ++
      text "; DuckDB accepts only ENFORCED + ALL_ROWS records")
  match spec.declaredName with
  | some declaredName => identifier declaredName (what ++ text ": declaredName")
  | none => .ok ()
  throwIf (¬(spec.kind = .check ↔ spec.checkSql.isSome))
    (text "checkSql is required for CHECK and only CHECK")
  throwIf (if spec.kind = .check then spec.columns ≠ [] else spec.columns = [])
    (if spec.kind = .check then text "CHECK takes no column paths"
      else spec.kind.name ++ text " requires column paths")
  throwIf (spec.kind = .notNull ∧ spec.columns.length ≠ 1)
    (text "NOT_NULL requires exactly one column path")
  throwIf (¬(spec.kind = .foreignKey ↔ spec.references.isSome))
    (text "references is required for FOREIGN_KEY and only FOREIGN_KEY")
  checkPaths spec.columns what (spec.kind ≠ .notNull)

/-- The shape of the CHECK expression; its columns are checked when the table is served. -/
def checkCheckSql (spec : ConstraintRecordSpec) : Except Text Unit :=
  match spec.checkSql with
  | none => .ok ()
  | some sql =>
      match Sql.validateNumericCheckSql toLowerCase toUpperCase sql (fun _ => .ok ()) with
      | .ok () => .ok ()
      | .error fault =>
          .error (constraintName spec ++ text ": " ++ faultMessage fault ++ text " (CHECK SQL: " ++
            sql ++ text ")")

def checkSpec (spec : ConstraintRecordSpec) : Except Text Unit := do
  checkShape spec
  checkCheckSql toLowerCase toUpperCase spec
  match spec.references with
  | none => .ok ()
  | some ref => checkReferences (constraintName spec) spec ref

def encodeCheck (spec : ConstraintRecordSpec) : Except Text (Option Bytes) :=
  match spec.checkSql with
  | none => .ok none
  | some sql =>
      some <$> codecs.sqlExpression.encode ⟨sql, rowScalarExpression, spec.schemaPath, checkContext⟩

def encodeForeign (references : Option References) : Except Text (Option Bytes) :=
  match references with
  | none => .ok none
  | some ref => do
      let table ← objectRef codecs "table" ref.schemaPath ref.table none
      some <$> codecs.foreignKeyDefinition.encode
        ⟨table, ref.columns, text "SIMPLE", text "NO_ACTION", text "NO_ACTION"⟩

def encodeReferenced (references : Option References) : Except Text (Option Bytes) :=
  match references with
  | none => .ok none
  | some ref =>
      some <$> objectRef codecs "constraint" ref.schemaPath ref.constraintId (some ref.table)

def encodeRecord (spec : ConstraintRecordSpec) : Except Text Bytes := do
  let check ← encodeCheck codecs spec
  let foreign ← encodeForeign codecs spec.references
  let ref ← objectRef codecs "constraint" spec.schemaPath spec.id (some spec.table)
  let definition ← codecs.constraintDefinition.encode
    ⟨spec.kind.name, spec.columns, spec.declaredName, check, foreign⟩
  let referenced ← encodeReferenced codecs spec.references
  codecs.constraintInfo.encode
    ⟨ref, definition, spec.enforcement.name, spec.validation.name, referenced⟩

/-- Encode one canonical `ConstraintInfo` record. -/
def constraintRecord (spec : ConstraintRecordSpec) : Except Text Bytes := do
  checkSpec toLowerCase toUpperCase spec
  encodeRecord codecs spec

/-! ## Reading -/

structure ReferencesView where
  schemaPath : List Text
  table : Text
  columns : List (List Text)
  constraintId : Option Text
  constraintTable : Option Text
  constraintSchemaPath : Option (List Text)
  matching : Text
  onUpdate : Text
  onDelete : Text
  deriving DecidableEq

/-- A decoded record, in the vocabulary of `constraintRecord`. -/
structure ConstraintRecordView where
  schemaPath : List Text
  table : Text
  id : Text
  kind : Text
  columns : List (List Text)
  enforcement : Text
  validation : Text
  declaredName : Option Text
  checkSql : Option Text
  references : Option ReferencesView
  deriving DecidableEq

def decodeOptional {Failure Record : Type} (codec : RecordCodec Failure Record)
    (bytes : Option Bytes) : Except Failure (Option Record) :=
  match bytes with
  | none => .ok none
  | some bytes => some <$> codec.decode bytes

def viewReferences (foreign : ForeignKeyDefinition) (target : CatalogObjectRef)
    (targetKey : Option CatalogObjectRef) : ReferencesView where
  schemaPath := target.schemaPath
  table := target.name
  columns := foreign.referencedColumnPaths
  constraintId := targetKey.map (·.name)
  constraintTable := targetKey.bind (·.ownerTable)
  constraintSchemaPath := targetKey.map (·.schemaPath)
  matching := foreign.matching
  onUpdate := foreign.onUpdate
  onDelete := foreign.onDelete

def readConstraintRecord {Failure : Type} (codecs : Codecs Failure) (bytes : Bytes) :
    Except Failure ConstraintRecordView := do
  let info ← codecs.constraintInfo.decode bytes
  let ref ← codecs.catalogObjectRef.decode info.ref
  let definition ← codecs.constraintDefinition.decode info.definition
  let foreign ← decodeOptional codecs.foreignKeyDefinition definition.foreignKey
  let target ← decodeOptional codecs.catalogObjectRef (foreign.map (·.referencedTable))
  let targetKey ← decodeOptional codecs.catalogObjectRef info.referencedConstraint
  let check ← decodeOptional codecs.sqlExpression definition.checkExpression
  .ok
    { schemaPath := ref.schemaPath
      table := ref.ownerTable.getD []
      id := ref.name
      kind := definition.kind
      columns := definition.columnPaths
      enforcement := info.enforcement
      validation := info.validation
      declaredName := definition.declaredName
      checkSql := check.map (·.sql)
      references :=
        match foreign, target with
        | some foreign, some target => some (viewReferences foreign target targetKey)
        | _, _ => none }

/-! ## Serving -/

/-- The positions of the fields of this name. -/
def fieldsByExactName (fields : List Field) (name : Text) : List Nat :=
  (List.range fields.length).filter fun index => fields[index]?.any fun field => field.name = name

/-- The position of the row-id column; several are refused. -/
def findRowId (table : Text) (fields : List Field) : Except Text (Option Nat) :=
  match (List.range fields.length).filter fun index => fields[index]?.any isRowIdField with
  | [] => .ok none
  | [index] => .ok (some index)
  | _ => .error (text "Table '" ++ table ++ text "': at most one column may carry is_row_id")

/-- The table that is served: its name, its schema and its columns. -/
structure Served where
  table : Text
  schemaPath : List Text
  fields : List Field
  rowId : Option Nat

def resolveTop (served : Served) (where_ : Text) (path : List Text) : Except Text Nat :=
  match fieldsByExactName served.fields (path.headD []) with
  | [index] =>
      if served.rowId = some index then
        .error (where_ ++ text ": column path " ++ joinPath path ++
          text " names a missing, ambiguous or row-id column")
      else .ok index
  | _ =>
      .error (where_ ++ text ": column path " ++ joinPath path ++
        text " names a missing, ambiguous or row-id column")

/-- The field that the rest of a path names below this one. -/
def descend (where_ : Text) (path : List Text) : Field → List Text → Except Text Field
  | field, [] => .ok field
  | field, name :: rest =>
      match ordinaryStructChildren field with
      | none =>
          .error (where_ ++ text ": column path " ++ joinPath path ++
            text " must traverse ordinary STRUCT fields")
      | some children =>
          match (fieldsByExactName children name).map (children[·]?) with
          | [some child] => descend where_ path child rest
          | _ =>
              .error (where_ ++ text ": column path " ++ joinPath path ++
                text " names a missing or ambiguous nested field")

def checkOperandTypes : List String :=
  ["TINYINT", "SMALLINT", "INTEGER", "BIGINT", "FLOAT", "DOUBLE"]

/-- The column that a CHECK operand names, which must be a primitive signed number. -/
def resolveOperand (served : Served) (name : Text) : Except Sql.Fault Unit :=
  let found := (List.range served.fields.length).filter fun index =>
    served.fields[index]?.any fun field => toLowerCase field.name = toLowerCase name
  match found with
  | _ :: _ :: _ => Sql.fail (text "ambiguous CHECK column reference " ++ name)
  | [] => Sql.fail (text "CHECK references a missing or row-id column " ++ name)
  | [index] =>
      if served.rowId = some index then
        Sql.fail (text "CHECK references a missing or row-id column " ++ name)
      else
        match served.fields[index]? with
        | none => Sql.fail []
        | some column =>
            if column.metadata.has extensionNameKey then
              Sql.fail (text "CHECK operand " ++ name ++ text " has an extension type")
            else if isGeneratedField column then
              Sql.fail (text "CHECK operand " ++ name ++ text " is a generated column")
            else if (duckdbPrimitive column).any checkOperandTypes.contains then .ok ()
            else
              Sql.fail (text "CHECK requires primitive signed numeric columns; " ++ name ++
                text " is not one")

/-- The members of an evaluation context: the key, the value DuckDB needs, and whether it is that. -/
def contextMembers (context : EvaluationContext) : List (String × String × Bool) :=
  [("timezone", "UTC", context.timezone = checkContext.timezone),
    ("collation", "binary", context.collation = checkContext.collation),
    ("default_order", "asc", context.defaultOrder = checkContext.defaultOrder),
    ("default_null_order", "nulls_last", context.defaultNullOrder = checkContext.defaultNullOrder),
    ("preserve_insertion_order", "true",
      context.preserveInsertionOrder = checkContext.preserveInsertionOrder)]

def validateCheckRecord (served : Served) (where_ : Text) (bytes : Bytes) : Except Text Unit := do
  let info ← codecs.constraintInfo.decode bytes
  let definition ← codecs.constraintDefinition.decode info.definition
  let expression ← codecs.sqlExpression.decode (definition.checkExpression.getD [])
  throwIf (expression.profile ≠ rowScalarExpression)
    (where_ ++ text ": unsupported CHECK expression profile " ++ expression.profile)
  throwIf (stringifyTexts expression.schemaPath ≠ stringifyTexts served.schemaPath)
    (where_ ++ text ": CHECK expression belongs to another schema")
  (contextMembers expression.evaluationContext).forM fun member =>
    throwIf (member.2.2 = false)
      (where_ ++ text ": unsupported CHECK evaluation context (" ++ text member.1 ++
        text " must be " ++ text member.2.1 ++ text ")")
  match Sql.validateNumericCheckSql toLowerCase toUpperCase expression.sql
      (resolveOperand toLowerCase served) with
  | .ok () => .ok ()
  | .error fault =>
      .error (where_ ++ text ": " ++ faultMessage fault ++ text " (CHECK SQL: " ++ expression.sql ++
        text ")")

/-- What the records seen so far amount to. -/
structure Validated where
  records : List ConstraintRecordView
  required : List Text
  ids : List Text
  labels : List Text
  primaryKeys : Nat
  deriving DecidableEq

def Validated.empty : Validated :=
  ⟨[], [], [], [], 0⟩

/-- `Set.prototype.add`. -/
def addText (texts : List Text) (added : Text) : List Text :=
  if added ∈ texts then texts else texts ++ [added]

def recordPlace (table : Text) (record : ConstraintRecordView) : Text :=
  text "Table '" ++ table ++ text "': constraint '" ++ record.id ++ text "'"

/-- A checker's refusal, told with the place of the record. -/
def placed (where_ : Text) (checked : Except Text Unit) : Except Text Unit :=
  checked.mapError fun message => where_ ++ text ": " ++ message

/-- The labels with that of the record, which is a new one. -/
def noteLabel (where_ : Text) (declaredName : Option Text) (labels : List Text) :
    Except Text (List Text) :=
  match declaredName with
  | none => .ok labels
  | some declaredName =>
      if toLowerCase declaredName ∈ labels then
        .error (where_ ++ text ": duplicate declared name '" ++ declaredName ++ text "'")
      else .ok (addText labels (toLowerCase declaredName))

/-- Identity, uniqueness and attestation; the record's id and label are taken note of. -/
def checkIdentity (served : Served) (record : ConstraintRecordView) (seen : Validated) :
    Except Text Validated := do
  let where_ := recordPlace served.table record
  throwIf (served.schemaPath.length ≠ 1 ∨ record.schemaPath.length ≠ 1 ∨
      record.schemaPath.head? ≠ served.schemaPath.head? ∨ record.table ≠ served.table)
    (where_ ++ text ": belongs to " ++ stringifyTexts record.schemaPath ++ text "." ++
      (if record.table = [] then text "?" else record.table) ++ text ", not the serving table " ++
      stringifyTexts served.schemaPath ++ text "." ++ served.table ++
      text " (DuckDB reads only one-component schema paths)")
  throwIf (record.id ∈ seen.ids) (where_ ++ text ": duplicate constraint id")
  let labels ← noteLabel toLowerCase where_ record.declaredName seen.labels
  throwIf (record.enforcement ≠ text "ENFORCED" ∨ record.validation ≠ text "ALL_ROWS")
    (where_ ++ text ": is " ++ record.enforcement ++ text "/" ++ record.validation ++
      text "; DuckDB accepts only ENFORCED + ALL_ROWS records")
  placed where_ (checkPaths record.columns record.kind (record.kind ≠ text "NOT_NULL"))
  .ok { seen with ids := addText seen.ids record.id, labels := labels }

def validateNotNull (served : Served) (record : ConstraintRecordView) (seen : Validated) :
    Except Text Validated := do
  let where_ := recordPlace served.table record
  throwIf (record.columns.length ≠ 1) (where_ ++ text ": NOT_NULL requires exactly one column path")
  let path := record.columns.headD []
  let index ← resolveTop served where_ path
  match served.fields[index]? with
  | none => .error []
  | some top => do
      let field ← descend where_ path top path.tail
      throwIf (path.length = 1 ∧ isGeneratedField field = true)
        (where_ ++ text ": column " ++ path.headD [] ++
          text " is a generated column, which DuckDB requires to be nullable")
      .ok { seen with required := addText seen.required (stringifyTexts path) }

/-- The columns of a PRIMARY KEY or UNIQUE constraint. -/
def resolveKey (served : Served) (where_ : Text) (primary : Bool) (columns : List (List Text)) :
    Except Text Unit :=
  columns.forM fun path => do
    let index ← resolveTop served where_ path
    throwIf (primary = true ∧ served.fields[index]?.any isGeneratedField = true)
      (where_ ++ text ": PRIMARY KEY column " ++ path.headD [] ++
        text " is a generated column, which DuckDB requires to be nullable")

def validateKey (served : Served) (record : ConstraintRecordView) (primary : Bool)
    (seen : Validated) : Except Text Validated := do
  let where_ := recordPlace served.table record
  resolveKey served where_ primary record.columns
  if primary then do
    throwIf (seen.primaryKeys ≠ 0) (where_ ++ text ": a table may have only one PRIMARY KEY")
    .ok { seen with
      primaryKeys := seen.primaryKeys + 1
      required := record.columns.foldl (fun required path => addText required (stringifyTexts path))
        seen.required }
  else .ok seen

def checkAction (where_ action : Text) : Except Text Unit :=
  throwIf (action ≠ text "NO_ACTION" ∧ action ≠ text "RESTRICT")
    (where_ ++ text ": referential action " ++ action ++
      text " is unsupported; DuckDB reads only NO_ACTION or RESTRICT")

def validateForeignKey (served : Served) (record : ConstraintRecordView) : Except Text Unit := do
  let where_ := recordPlace served.table record
  record.columns.forM fun path => do
    let _ ← resolveTop served where_ path
  match record.references with
  | none =>
      .error (where_ ++
        text ": FOREIGN_KEY requires a referenced table and referenced constraint")
  | some ref => do
      throwIf (ref.constraintId = none)
        (where_ ++ text ": FOREIGN_KEY requires a referenced table and referenced constraint")
      throwIf (ref.schemaPath.length ≠ 1 ∨ ref.schemaPath.head? ≠ served.schemaPath.head? ∨
          ref.constraintSchemaPath.map stringifyTexts ≠ some (stringifyTexts ref.schemaPath) ∨
          ref.constraintTable ≠ some ref.table)
        (where_ ++ text (": DuckDB reads only foreign keys to an identified key of a table in " ++
          "the same schema"))
      throwIf (ref.columns.length ≠ record.columns.length)
        (where_ ++ text ": foreign key arity mismatch")
      placed where_ (checkPaths ref.columns (text "FOREIGN_KEY referenced") true)
      throwIf (ref.matching ≠ text "SIMPLE")
        (where_ ++ text ": MATCH " ++ ref.matching ++
          text " is unsupported; DuckDB reads only MATCH SIMPLE")
      checkAction where_ ref.onUpdate
      checkAction where_ ref.onDelete

def validateKind (served : Served) (bytes : Bytes) (record : ConstraintRecordView)
    (seen : Validated) : Except Text Validated :=
  let where_ := recordPlace served.table record
  if record.kind = ConstraintKind.check.name then do
    throwIf (record.checkSql = none) (where_ ++ text ": CHECK without an expression")
    validateCheckRecord toLowerCase toUpperCase codecs served where_ bytes
    .ok seen
  else if record.kind = ConstraintKind.notNull.name then validateNotNull served record seen
  else if record.kind = ConstraintKind.primaryKey.name then validateKey served record true seen
  else if record.kind = ConstraintKind.unique.name then validateKey served record false seen
  else if record.kind = ConstraintKind.foreignKey.name then do
    validateForeignKey served record
    .ok seen
  else .error (where_ ++ text ": unknown constraint kind " ++ record.kind)

def validateRecord (served : Served) (seen : Validated) (bytes : Bytes) : Except Text Validated := do
  let record ← (readConstraintRecord codecs bytes).mapError fun message =>
    text "Table '" ++ served.table ++ text "': undecodable constraint record: " ++ message
  let seen ← checkIdentity toLowerCase served record seen
  let seen ← validateKind toLowerCase toUpperCase codecs served bytes record seen
  .ok { seen with records := seen.records ++ [record] }

/-- Check a table's records as the DuckDB extension does at ATTACH. -/
def validateTableConstraints (table : Text) (schemaPath : List Text) (fields : List Field)
    (constraints : List Bytes) : Except Text Validated := do
  throwIf (1024 < constraints.length)
    (text "Table '" ++ table ++ text "': too many constraints (at most 1024)")
  let rowId ← findRowId table fields
  constraints.foldlM (validateRecord toLowerCase toUpperCase codecs ⟨table, schemaPath, fields, rowId⟩)
    .empty

end

end VgiWorker.Catalog.Constraints
