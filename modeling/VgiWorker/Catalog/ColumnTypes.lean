import VgiWorker.Arrow.Types

/-!
# Column types

How the DuckDB extension classifies an Arrow field.
-/

set_option autoImplicit false

namespace VgiWorker.Catalog

open VgiWorker.Js VgiWorker.Arrow

def extensionNameKey : Text :=
  text "ARROW:extension:name"

/-- The top-level column carrying `is_row_id` metadata. -/
def isRowIdField (field : Field) : Bool :=
  field.metadata.has (text "is_row_id")

/-- Whether the field carries an Arrow extension type or a VGI logical type. -/
def hasLogicalType (field : Field) : Bool :=
  field.metadata.keys.any fun key =>
    key = extensionNameKey || (text "vgi.logical_type.").isPrefixOf key

/-- The children of an ordinary STRUCT, one without an extension or logical type. -/
def ordinaryStructChildren (field : Field) : Option (List Field) :=
  match field.type with
  | .struct children => if hasLogicalType field then none else some children
  | _ => none

/-- Whether the field is a generated column, by canonical or legacy metadata. -/
def isGeneratedField (field : Field) : Bool :=
  field.metadata.has (text "vgi.column.generated.v1") ||
    field.metadata.has (text "vgi.column.generation.v1") ||
    field.metadata.has (text "generated_expression")

/-- The DuckDB primitive that a field maps to for expressions and CHECK operands. -/
def duckdbPrimitive (field : Field) : Option String :=
  if hasLogicalType field then none
  else
    match field.type with
    | .bool => some "BOOLEAN"
    | .utf8 => some "VARCHAR"
    | .int 8 true => some "TINYINT"
    | .int 16 true => some "SMALLINT"
    | .int 32 true => some "INTEGER"
    | .int 64 true => some "BIGINT"
    | .float .single => some "FLOAT"
    | .float .double => some "DOUBLE"
    | .decimal 128 _ _ => some "DECIMAL"
    | _ => none

end VgiWorker.Catalog
