import VgiWorker.Arrow.NestedData
import VgiWorker.Data.Masked
import VgiWorker.FilterPushdown.Evaluate
import VgiWorker.Functions.Continuation
import VgiWorker.Js.Base64

/-!
# The filtering collector

It applies the pushdown filters to each emitted batch, and drops the parent rows
of the rows it drops.
-/

set_option autoImplicit false

namespace VgiWorker.Functions

open VgiWorker.Js VgiWorker.Arrow VgiWorker.FilterPushdown

/-! ## Parent rows -/

def parentRowMetadataKey : Text := text "vgi_rpc.parent_row#b64"

/-- `setInt32`, little-endian. -/
def int32Bytes (value : Int) : Bytes :=
  leBytes 4 (value % 2 ^ 32).toNat

/-- `getInt32`, little-endian. -/
def int32Value (bytes : Bytes) : Int :=
  if leValue bytes < 2 ^ 31 then leValue bytes else leValue bytes - 2 ^ 32

def encodeParentRows (parentRows : List Int) : Text :=
  bytesToB64 (parentRows.flatMap int32Bytes)

/-- The whole words of the bytes. -/
def int32Values : Bytes → List Int
  | first :: second :: third :: fourth :: rest =>
      int32Value [first, second, third, fourth] :: int32Values rest
  | _ => []

section

variable (decodeBase64 : Text → Bytes)

/-- `decodeBase64` is what the runtime's lenient reader makes of a text. -/
def decodeParentRows (encoded : Text) : List Int :=
  int32Values (decodeBase64 encoded)

/-! ## Filtering -/

def emptyBatch (schema : Schema) : Batch :=
  ⟨schema, schema.fields.map fun _ => [], 0, none⟩

section

variable {library : VectorLibrary} (nested : Nested.NestedVectors library)
  (dateText : Number → Text)

/-- The rich values of a column at some rows. -/
def richColumn (batch : Batch) (indices : List Nat) (field : Field) :
    Except CodecError (Text × List Rich) := do
  let column := (batch.getChild field.name).getD []
  let values ← indices.mapM fun index =>
    canonicalToRich dateText field.type (readCanonicalValue column index)
  .ok (field.name, values)

/-- A batch that loses rows is built anew, without its metadata. -/
def filterBatch (batch : Batch) (mask : List Bool) : Except Fault Batch :=
  let indices := keepMasked (List.range batch.numRows) mask
  if indices.length = batch.numRows then .ok batch
  else if indices = [] then .ok (emptyBatch batch.schema)
  else do
    let columns ← (batch.schema.fields.mapM (richColumn dateText batch indices)).mapError
      fun failure => .error (codecMessage failure)
    (Nested.batchFromColumns nested dateText (objectOf columns) batch.schema).mapError .error

def applyFilters (filters : PushdownFilters) (batch : Batch) : Except Fault Batch :=
  if batch.numRows = 0 ∨ filters.predicates = [] then .ok batch
  else do
    let mask ← filters.evaluate batch
    filterBatch nested dateText batch mask

/-- The metadata of an emit whose rows are filtered by a mask. -/
def filterParents (metadata : Metadata) (encoded : Text) (mask : List Bool) : Metadata :=
  let kept := keepMasked (decodeParentRows decodeBase64 encoded) mask
  if kept = [] then metadata.delete parentRowMetadataKey
  else metadata.set parentRowMetadataKey (encodeParentRows kept)

/-- What `emit` passes to the inner collector. -/
def filteringEmit (filters : PushdownFilters) (emitted : Emitted) : Except Fault Emitted :=
  match emitted.metadata with
  | some metadata =>
      match metadata.get? parentRowMetadataKey with
      | some encoded =>
          if 0 < emitted.batch.numRows ∧ filters.predicates ≠ [] then do
            let mask ← filters.evaluate emitted.batch
            let filtered ← filterBatch nested dateText emitted.batch mask
            .ok ⟨filtered, some (filterParents decodeBase64 metadata encoded mask)⟩
          else do
            let filtered ← applyFilters nested dateText filters emitted.batch
            .ok ⟨filtered, emitted.metadata⟩
      | none => do
          let filtered ← applyFilters nested dateText filters emitted.batch
          .ok ⟨filtered, emitted.metadata⟩
  | none => do
      let filtered ← applyFilters nested dateText filters emitted.batch
      .ok ⟨filtered, emitted.metadata⟩

end

/-! ## What a reader sees -/

/-- The parent of a row under the metadata of its batch; without a list a row is its own. -/
def parentOf (metadata : Metadata) (row : Nat) : Option Int :=
  match metadata.get? parentRowMetadataKey with
  | some encoded => (decodeParentRows decodeBase64 encoded)[row]?
  | none => some row

/-- The rows that a mask lets through, in order. -/
def survivors (batch : Batch) (mask : List Bool) : List Nat :=
  keepMasked (List.range batch.numRows) mask

/-- Each surviving row is there with the parent it had, and every other entry is still
delivered. -/
structure KeepsProvenance (emitted filtered : Emitted) (mask : List Bool) : Prop where
  rows : filtered.batch.numRows = (survivors emitted.batch mask).length
  parents : ∀ index row, (survivors emitted.batch mask)[index]? = some row →
    parentOf decodeBase64 filtered.sent index = parentOf decodeBase64 emitted.sent row
  entries : ∀ key value, key ≠ parentRowMetadataKey → emitted.sent.get? key = some value →
    filtered.sent.get? key = some value

end

end VgiWorker.Functions
