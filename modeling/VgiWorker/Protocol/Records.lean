import VgiWorker.Arrow.Codec
import VgiWorker.Protocol.ArgumentsProperties

/-!
# Wire records

A protocol record is a batch of one row. Each member goes out through the codec
of its column and comes back through it.
-/

set_option autoImplicit false

namespace VgiWorker.Protocol

open VgiWorker.Js VgiWorker.Arrow

/-- A row by member name; a missing member is undefined, which reads as null. -/
abbrev Row := List (Text × Rich)

def rowMember (row : Row) (name : Text) : Rich :=
  (lookupEntry row name).getD .null

inductive WireFault where
  | rangeError (message : Text)
  | codec (fault : CodecError)
  | arguments (fault : ArgumentsFault)
  | error (message : Text)
  deriving DecidableEq

def codecResult {α : Type} (result : Except CodecError α) : Except WireFault α :=
  result.mapError .codec

/-! ## Writing -/

/-- The lists whose items may be null. -/
def optionalItemFields : List Text :=
  [text "argument_names"]

/-- The value of a list item that was left null. -/
def zeroValue : DataType → Rich
  | .utf8 | .largeUtf8 => .string []
  | .binary | .largeBinary => .bytes []
  | .bool => .bool false
  | .int bitWidth _ => if bitWidth = 64 then .bigint 0 else .number Number.zero
  | .float _ => .number Number.zero
  | .list _ | .map _ _ => .array []
  | _ => .null

def conformItem (field : Field) (child : Field) (item : Rich) : Rich :=
  if isRichNull item ∧ field.name ∉ optionalItemFields then zeroValue child.type else item

/-- The container rules of the wire; the lists of the protocol records hold scalars, and their
structs no containers. -/
def conformValue (field : Field) (value : Rich) : Rich :=
  match field.type, value with
  | .list (child :: _), .array items => .array (items.map (conformItem field child))
  | .list _, .null => if field.nullable then .null else .array []
  | _, value => value

def coerceInt64 (type : DataType) (value : Rich) : Except WireFault Rich :=
  match type, value with
  | .int 64 _, .number number =>
      match number.toInt? with
      | some integer => .ok (.bigint integer)
      | none =>
          .error (.rangeError (text "The number " ++ number.toText ++
            text " cannot be converted to a BigInt because it is not an integer"))
  | _, value => .ok value

/-- A canonical value as a column of the type holds it, the lists and dictionaries included. -/
def storeColumnCell : DataType → Value → Value
  | .list (child :: _), .array items => .array (items.map (storeCell child.type))
  | .dictionary _ dictionary _ _, value => storeCell dictionary value
  | type, value => storeCell type value

/-- The one-row batch of the cells of a record. -/
def recordBatch (schema : Schema) (cells : List Value) : Batch where
  schema := schema
  columns := cells.map fun cell => [cell]
  numRows := 1
  metadata := none

section

variable (dateText : Number → Text)

def writeCell (entry : Field × Rich) : Except WireFault Value := do
  let canonical ← codecResult (richToCanonical dateText entry.1.type entry.2)
  .ok (storeColumnCell entry.1.type canonical)

def coerceMember (values : Row) (field : Field) : Except WireFault (Field × Rich) := do
  let value ← coerceInt64 field.type (conformValue field (rowMember values field.name))
  .ok (field, value)

def buildSingleRowBatch (schema : Schema) (values : Row) : Except WireFault Batch := do
  let row ← schema.fields.mapM (coerceMember values)
  let cells ← row.mapM (writeCell dateText)
  .ok (recordBatch schema cells)

/-! ## Reading -/

def dictEntries (batch : Batch) (row : Row) : List Field → Except WireFault Row
  | [] => .ok row
  | field :: rest =>
      match batch.getChild field.name with
      | none => dictEntries batch row rest
      | some column => do
          let rich ← codecResult (canonicalToRich dateText field.type (readCanonicalValue column 0))
          dictEntries batch (setEntry row field.name rich) rest

def batchToScalarDict (batch : Batch) : Except WireFault Row :=
  if batch.numRows = 0 then .ok [] else dictEntries dateText batch [] batch.schema.fields

end

end VgiWorker.Protocol
