import VgiWorker.Js.OrderedMapRuns
import VgiWorker.Catalog.ColumnTypes

/-!
# Column decorations

Defaults, generated columns and comments are put on a table's schema as metadata entries
of the columns they name.
-/

set_option autoImplicit false

namespace VgiWorker.Catalog.Decorations

open VgiWorker.Js VgiWorker.Arrow

inductive DefaultValue where
  | null
  | boolean (value : Bool)
  | number (value : Number)
  | string (value : Text)

def defaultExpressionKey : Text := text "vgi.column.default.v1"

def legacyDefaultKey : Text := text "default"

def generatedExpressionKey : Text := text "vgi.column.generated.v1"

def legacyGeneratedKey : Text := text "generated_expression"

def generationKey : Text := text "vgi.column.generation.v1"

def commentKey : Text := text "comment"

def defaultToSql : DefaultValue → Text
  | .null => text "NULL"
  | .boolean value => if value then text "true" else text "false"
  | .number value => value.toText
  | .string value =>
      text "'" ++ (value.flatMap fun unit => if unit = 39 then [39, 39] else [unit]) ++ text "'"

/-- Whether a literal default is served as canonical metadata. -/
def canonicalDefault (type : Option String) : DefaultValue → Bool
  | .boolean _ => type == some "BOOLEAN"
  | .string _ => type == some "VARCHAR"
  | _ => false

/-! ## One decorated column -/

/-- One pass of a decoration's loop: the entries for the column that it names, what happens
where no column has the name, and the schema metadata of the rebuilt schema. -/
structure Change where
  column : Text
  entries : Field → Except Text (List (Text × Text))
  missing : Except Text Unit
  rebuilt : Metadata → Metadata

def targetOf (fields : List Field) (column : Text) : Option Nat :=
  fields.findIdx? fun field => field.name = column

def withEntries (field : Field) (entries : List (Text × Text)) : Field :=
  { field with metadata := field.metadata.setAll entries }

def applyChange (schema : Schema) (change : Change) : Except Text Schema :=
  match targetOf schema.fields change.column with
  | none => do
      change.missing
      return schema
  | some index =>
      match schema.fields[index]? with
      | none => .ok schema
      | some field => do
          let entries ← change.entries field
          return ⟨schema.fields.set index (withEntries field entries),
            change.rebuilt schema.metadata⟩

/-! ## The three decorations

`defaultExpressionMetadata` and `generatedExpressionMetadata` check the SQL and give the
encoded expression that the owning schema path is written into. -/

section

variable (defaultExpressionMetadata generatedExpressionMetadata :
  Text → List Text → Except Text Text)

def defaultEntries (owner : List Text) (value : DefaultValue) (field : Field) :
    Except Text (List (Text × Text)) :=
  let sql := defaultToSql value
  if canonicalDefault (duckdbPrimitive field) value then do
    let encoded ← defaultExpressionMetadata sql owner
    return [(defaultExpressionKey, encoded)]
  else
    return [(legacyDefaultKey, sql)]

def defaultChange (owner : List Text) (entry : Text × DefaultValue) : Change where
  column := entry.1
  entries := defaultEntries defaultExpressionMetadata owner entry.2
  missing := .ok ()
  -- The schema is rebuilt from its fields alone.
  rebuilt := fun _ => .empty

def applyDefaults (schema : Schema) (defaults : OrderedMap Text DefaultValue)
    (owner : List Text) : Except Text Schema :=
  (defaults.entries.map (defaultChange defaultExpressionMetadata owner)).foldlM applyChange schema

def generatedEntries (owner : List Text) (table column expression : Text) (field : Field) :
    Except Text (List (Text × Text)) :=
  if field.metadata.has generatedExpressionKey || field.metadata.has legacyGeneratedKey then
    .error (text "Table '" ++ table ++ text "': generatedColumns for " ++ column ++
      text " conflicts with existing expression metadata")
  else do
    let encoded ← (generatedExpressionMetadata expression owner).mapError fun message =>
      text "Table '" ++ table ++ text "': column " ++ column ++ text ": " ++ message
    return [(generatedExpressionKey, encoded), (generationKey, text "virtual")]

def generatedChange (owner : List Text) (table : Text) (entry : Text × Text) : Change where
  column := entry.1
  entries := generatedEntries generatedExpressionMetadata owner table entry.1 entry.2
  missing := .error (text "Table '" ++ table ++ text "': generatedColumns names unknown column " ++
    entry.1)
  rebuilt := id

def applyGeneratedColumns (schema : Schema) (generated : OrderedMap Text Text)
    (owner : List Text) (table : Text) : Except Text Schema :=
  (generated.entries.map (generatedChange generatedExpressionMetadata owner table)).foldlM
    applyChange schema

end

def commentChange (table : Text) (entry : Text × Text) : Change where
  column := entry.1
  entries := fun _ => .ok [(commentKey, entry.2)]
  missing := .error (text "Table '" ++ table ++ text "': columnComments names unknown column " ++
    entry.1)
  rebuilt := id

def applyColumnComments (schema : Schema) (comments : OrderedMap Text Text) (table : Text) :
    Except Text Schema :=
  (comments.entries.map (commentChange table)).foldlM applyChange schema

/-! ## The three of them -/

inductive Decoration where
  | defaults
  | generated
  | comments
  deriving DecidableEq

/-- What a table's descriptor asks for, with the names that the errors and the encoded
expressions carry. -/
structure Request where
  owner : List Text
  table : Text
  defaults : OrderedMap Text DefaultValue
  generated : OrderedMap Text Text
  comments : OrderedMap Text Text

section

variable (defaultExpressionMetadata generatedExpressionMetadata :
  Text → List Text → Except Text Text) (request : Request)

def apply (schema : Schema) : Decoration → Except Text Schema
  | .defaults => applyDefaults defaultExpressionMetadata schema request.defaults request.owner
  | .generated =>
      applyGeneratedColumns generatedExpressionMetadata schema request.generated request.owner
        request.table
  | .comments => applyColumnComments schema request.comments request.table

def changesOf : Decoration → List Change
  | .defaults => request.defaults.entries.map (defaultChange defaultExpressionMetadata request.owner)
  | .generated =>
      request.generated.entries.map
        (generatedChange generatedExpressionMetadata request.owner request.table)
  | .comments => request.comments.entries.map (commentChange request.table)

/-- The decorations applied in some order. -/
def applyAll (order : List Decoration) (schema : Schema) : Except Text Schema :=
  order.foldlM (apply defaultExpressionMetadata generatedExpressionMetadata request) schema

end

end VgiWorker.Catalog.Decorations
