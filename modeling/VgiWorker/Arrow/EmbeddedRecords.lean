import VgiWorker.Arrow.EnvelopeGrammar
import VgiWorker.Arrow.SchemaShapes

/-!
# Embedded records

What a projection record and the record of a column expression pass before anything is
read from them, and when only records of the expected schema pass. The reader of the IPC
library is a parameter.
-/

set_option autoImplicit false

namespace VgiWorker.Arrow.EmbeddedRecords

open VgiWorker.Js VgiWorker.Arrow.Library VgiWorker.Arrow.Envelopes

structure RecordBatch where
  schema : ArrowSchema
  numRows : Nat
  columns : List Column

/-- `getChildAt(index)?.get(0)`, where there is such a cell. -/
def RecordBatch.firstCell (batch : RecordBatch) (index : Nat) : Option Value :=
  batch.columns[index]?.bind List.head?

/-- `cell == null`. -/
def isNullish : Option Value → Bool
  | none | some .null => true
  | some _ => false

/-- A walk over the messages ends within as many turns as there are bytes. -/
def ended {Found : Type} : Option Found → Except Text Found
  | some found => .ok found
  | none => incomplete

section

variable {Dict : Type} (backend : Backend) (localeCompare : Text → Text → Int)
  (deserializeBatch : Bytes → Except Text RecordBatch)

def requiredIsNull (expected : ArrowSchema) (batch : RecordBatch) : Bool :=
  expected.fields.zipIdx.any fun (field, index) =>
    !field.nullable && isNullish (batch.firstCell index)

/-- What `projectionRecord` checks of a batch. -/
def checkProjection (expected : ArrowSchema) (batch : RecordBatch) : Except Text Unit :=
  if batch.numRows ≠ 1 ∨ projectionShape backend localeCompare (batch.schema.object backend) ≠
      projectionShape backend localeCompare (expected.object backend) then
    .error (text "invalid projection record schema/row count")
  else if requiredIsNull expected batch then .error (text "required projection field is NULL")
  else .ok ()

def projectionRecord (batchToScalarDict : RecordBatch → Except Text Dict) (bytes : Bytes)
    (expected : ArrowSchema) : Except Text Dict := do
  let walked ← projectionEnvelope (bytes.length + 1) bytes
  ended walked
  let batch ← deserializeBatch bytes
  checkProjection backend localeCompare expected batch
  batchToScalarDict batch

/-- What `validateEncoded` checks of a batch. -/
def checkExpression (expected : ArrowSchema) (batch : RecordBatch) : Except Text Unit :=
  if batch.numRows ≠ 1 ∨ expressionShape backend (batch.schema.object backend) ≠
      expressionShape backend (expected.object backend) then
    .error (text "invalid SqlExpression record schema")
  else .ok ()

/-- The part of `validateEncoded` from the envelope to the schema check. -/
def expressionRecord (bytes : Bytes) (expected : ArrowSchema) : Except Text RecordBatch := do
  let walked ← expressionEnvelope (bytes.length + 1) bytes
  let _ ← ended walked
  let batch ← deserializeBatch bytes
  checkExpression backend expected batch
  .ok batch

/-! ## What passes -/

/-- One row, and no null in a field that has to have a value. -/
structure OneFullRow (expected : ArrowSchema) (batch : RecordBatch) : Prop where
  oneRow : batch.numRows = 1
  filled : ∀ index field, expected.fields[index]? = some field → field.nullable = false →
    isNullish (batch.firstCell index) = false

/-- The schemas differ, but not in anything that their shapes tell. -/
structure Hidden (noted : Bool) (left right : ArrowSchema) : Prop where
  alike : SchemasLookAlike backend localeCompare noted left right
  differ : ¬SameSchemas noted left right

private theorem requiredIsNull_false (expected : ArrowSchema) (batch : RecordBatch) :
    requiredIsNull expected batch = false ↔
      ∀ index field, expected.fields[index]? = some field → field.nullable = false →
        isNullish (batch.firstCell index) = false := by
  simp only [requiredIsNull, List.any_eq_false, Bool.and_eq_true, Bool.not_eq_true', not_and,
    Bool.not_eq_true]
  constructor
  · intro each index field found required
    exact each (field, index) (List.mem_zipIdx_iff_getElem?.mpr found) required
  · intro each entry member required
    exact each entry.2 entry.1 (List.mem_zipIdx_iff_getElem?.mp member) required

theorem checkProjection_ok_iff (expected : ArrowSchema) (batch : RecordBatch) :
    checkProjection backend localeCompare expected batch = .ok () ↔
      OneFullRow expected batch ∧
        SchemasLookAlike backend localeCompare true batch.schema expected := by
  rw [checkProjection, ← projectionShape_iff]
  constructor
  · intro passed
    split at passed
    · cases passed
    · rename_i agrees
      obtain ⟨oneRow, alike⟩ := not_or.mp agrees
      split at passed
      · cases passed
      · rename_i filled
        refine ⟨⟨not_not.mp oneRow, ?_⟩, not_not.mp alike⟩
        exact (requiredIsNull_false expected batch).mp (Bool.not_eq_true _ ▸ filled)
  · intro ⟨full, alike⟩
    have filled := (requiredIsNull_false expected batch).mpr full.filled
    simp [full.oneRow, alike, filled]

theorem checkExpression_ok_iff (expected : ArrowSchema) (batch : RecordBatch) :
    checkExpression backend expected batch = .ok () ↔
      batch.numRows = 1 ∧ SchemasLookAlike backend localeCompare false batch.schema expected := by
  rw [checkExpression, ← expressionShape_iff]
  constructor
  · intro passed
    split at passed
    · cases passed
    · rename_i agrees
      obtain ⟨oneRow, alike⟩ := not_or.mp agrees
      exact ⟨not_not.mp oneRow, not_not.mp alike⟩
  · intro ⟨oneRow, alike⟩
    simp [oneRow, alike]

private theorem ended_ok {Found : Type} (walked : Option Found) (found : Found) :
    ended walked = .ok found ↔ walked = some found := by
  cases walked with
  | none => simp [ended, incomplete]
  | some other => simp [ended]

theorem projectionRecord_ok_iff (batchToScalarDict : RecordBatch → Except Text Dict)
    (bytes : Bytes) (expected : ArrowSchema) (record : Dict) :
    projectionRecord backend localeCompare deserializeBatch batchToScalarDict bytes expected =
        .ok record ↔
      ∃ batch, projectionEnvelope (bytes.length + 1) bytes = .ok (some ()) ∧
        deserializeBatch bytes = .ok batch ∧ batchToScalarDict batch = .ok record ∧
        OneFullRow expected batch ∧
        SchemasLookAlike backend localeCompare true batch.schema expected := by
  unfold projectionRecord
  constructor
  · intro accepted
    obtain ⟨walked, walk, accepted⟩ := except_bind_ok _ _ _ accepted
    obtain ⟨found, isEnded, accepted⟩ := except_bind_ok _ _ _ accepted
    obtain ⟨batch, decoded, accepted⟩ := except_bind_ok _ _ _ accepted
    obtain ⟨_, checked, read⟩ := except_bind_ok _ _ _ accepted
    obtain ⟨full, alike⟩ := (checkProjection_ok_iff backend localeCompare expected batch).mp checked
    rw [(ended_ok walked found).mp isEnded] at walk
    exact ⟨batch, walk, decoded, read, full, alike⟩
  · intro ⟨batch, walk, decoded, read, full, alike⟩
    have checked := (checkProjection_ok_iff backend localeCompare expected batch).mpr ⟨full, alike⟩
    simp [walk, ended, decoded, checked, read, bind, Except.bind]

theorem expressionRecord_ok_iff (bytes : Bytes) (expected : ArrowSchema) (batch : RecordBatch) :
    expressionRecord backend deserializeBatch bytes expected = .ok batch ↔
      ∃ buffers, expressionEnvelope (bytes.length + 1) bytes = .ok (some buffers) ∧
        deserializeBatch bytes = .ok batch ∧ batch.numRows = 1 ∧
        SchemasLookAlike backend localeCompare false batch.schema expected := by
  unfold expressionRecord
  constructor
  · intro accepted
    obtain ⟨walked, walk, accepted⟩ := except_bind_ok _ _ _ accepted
    obtain ⟨buffers, isEnded, accepted⟩ := except_bind_ok _ _ _ accepted
    obtain ⟨read, decoded, accepted⟩ := except_bind_ok _ _ _ accepted
    obtain ⟨_, checked, same⟩ := except_bind_ok _ _ _ accepted
    cases same
    obtain ⟨oneRow, alike⟩ := (checkExpression_ok_iff backend localeCompare expected batch).mp checked
    rw [(ended_ok walked buffers).mp isEnded] at walk
    exact ⟨buffers, walk, decoded, oneRow, alike⟩
  · intro ⟨buffers, walk, decoded, oneRow, alike⟩
    have checked := (checkExpression_ok_iff backend localeCompare expected batch).mpr ⟨oneRow, alike⟩
    simp [walk, ended, decoded, checked, bind, Except.bind]

/-- Both checks let only the expected schema pass exactly where the schemas do not differ in
something that their shapes hide. -/
theorem embedded_records_exact_iff (batchToScalarDict : RecordBatch → Except Text Dict)
    (bytes : Bytes) (expected : ArrowSchema) :
    ((∀ record, projectionRecord backend localeCompare deserializeBatch batchToScalarDict bytes
          expected = .ok record →
        ∃ batch, deserializeBatch bytes = .ok batch ∧ SameSchemas true batch.schema expected ∧
          OneFullRow expected batch) ↔
      ∀ batch record, projectionEnvelope (bytes.length + 1) bytes = .ok (some ()) →
        deserializeBatch bytes = .ok batch → batchToScalarDict batch = .ok record →
        OneFullRow expected batch → ¬Hidden backend localeCompare true batch.schema expected) ∧
    ((∀ batch, expressionRecord backend deserializeBatch bytes expected = .ok batch →
        SameSchemas false batch.schema expected ∧ batch.numRows = 1) ↔
      ∀ batch buffers, expressionEnvelope (bytes.length + 1) bytes = .ok (some buffers) →
        deserializeBatch bytes = .ok batch → batch.numRows = 1 →
        ¬Hidden backend localeCompare false batch.schema expected) := by
  refine ⟨⟨?_, ?_⟩, ⟨?_, ?_⟩⟩
  · intro sound batch record walk decoded read full hidden
    obtain ⟨other, same, schemas, _⟩ := sound record
      ((projectionRecord_ok_iff backend localeCompare deserializeBatch batchToScalarDict bytes
        expected record).mpr ⟨batch, walk, decoded, read, full, hidden.alike⟩)
    rw [decoded] at same
    cases same
    exact hidden.differ schemas
  · intro shown record accepted
    obtain ⟨batch, walk, decoded, read, full, alike⟩ :=
      (projectionRecord_ok_iff backend localeCompare deserializeBatch batchToScalarDict bytes
        expected record).mp accepted
    refine ⟨batch, decoded, ?_, full⟩
    by_contra differ
    exact shown batch record walk decoded read full ⟨alike, differ⟩
  · intro sound batch buffers walk decoded oneRow hidden
    have accepted := (expressionRecord_ok_iff backend localeCompare deserializeBatch bytes expected
      batch).mpr ⟨buffers, walk, decoded, oneRow, hidden.alike⟩
    exact hidden.differ (sound batch accepted).1
  · intro shown batch accepted
    obtain ⟨buffers, walk, decoded, oneRow, alike⟩ :=
      (expressionRecord_ok_iff backend localeCompare deserializeBatch bytes expected batch).mp
        accepted
    refine ⟨?_, oneRow⟩
    by_contra differ
    exact shown batch buffers walk decoded oneRow ⟨alike, differ⟩

end

/-! ## flechette -/

/-- Of a field without children, flechette's shape does not tell the type. -/
theorem flechette_leaves_alike (localeCompare : Text → Text → Int) (noted : Bool) (name : Text)
    (nullable : Bool) (left right : LeafType) :
    SchemasLookAlike flechetteBackend localeCompare noted
      ⟨[⟨name, .leaf left, nullable, .empty⟩], .empty⟩
      ⟨[⟨name, .leaf right, nullable, .empty⟩], .empty⟩ where
  fields := ⟨rfl, rfl, rfl, fun _ => rfl, rfl, True.intro⟩
  metadata := fun _ => rfl

/-- The stream of one batch: a required field `n` of 64-bit integers, and 7 in its row. -/
def longStream : Bytes :=
  [255, 255, 255, 255, 120, 0, 0, 0, 16, 0, 0, 0, 0, 0, 10, 0, 11, 0, 8, 0, 10, 0, 4, 0, 10,
   0, 0, 0, 16, 0, 0, 0, 4, 0, 1, 0, 8, 0, 8, 0, 0, 0, 4, 0, 8, 0, 0, 0, 4, 0, 0, 0, 1, 0, 0,
   0, 20, 0, 0, 0, 16, 0, 17, 0, 4, 0, 0, 0, 16, 0, 8, 0, 0, 0, 12, 0, 16, 0, 0, 0, 16, 0, 0,
   0, 28, 0, 0, 0, 36, 0, 0, 0, 2, 0, 0, 0, 1, 0, 0, 0, 110, 0, 0, 0, 8, 0, 9, 0, 4, 0, 8, 0,
   8, 0, 0, 0, 64, 0, 0, 0, 1, 0, 0, 0, 0, 0, 0, 0] ++
  [255, 255, 255, 255, 144, 0, 0, 0, 16, 0, 0, 0, 12, 0, 23, 0, 20, 0, 22, 0, 16, 0, 8, 0,
   12, 0, 0, 0, 0, 0, 0, 0, 8, 0, 0, 0, 0, 0, 0, 0, 24, 0, 0, 0, 4, 0, 3, 0, 0, 0, 0, 0, 0,
   0, 10, 0, 24, 0, 8, 0, 16, 0, 20, 0, 10, 0, 0, 0, 0, 0, 0, 0, 1, 0, 0, 0, 0, 0, 0, 0, 12,
   0, 0, 0, 32, 0, 0, 0, 0, 0, 0, 0, 1, 0, 0, 0, 1, 0, 0, 0, 0, 0, 0, 0, 0, 0, 0, 0, 0, 0, 0,
   0, 0, 0, 0, 0, 2, 0, 0, 0, 0, 0, 0, 0, 0, 0, 0, 0, 0, 0, 0, 0, 0, 0, 0, 0, 0, 0, 0, 0, 0,
   0, 0, 0, 8, 0, 0, 0, 0, 0, 0, 0, 7, 0, 0, 0, 0, 0, 0, 0] ++
  [255, 255, 255, 255, 0, 0, 0, 0]

def longBatch : RecordBatch :=
  ⟨⟨[⟨text "n", .leaf (.int 64 true), false, .empty⟩], .empty⟩, 1, [[.bigint 7]]⟩

def intSchema : ArrowSchema :=
  ⟨[⟨text "n", .leaf (.int 32 true), false, .empty⟩], .empty⟩

def readLongStream (bytes : Bytes) : Except Text RecordBatch :=
  if bytes = longStream then .ok longBatch else .error (text "invalid IPC")

/-- Where 32-bit integers are expected, flechette takes 64-bit ones. -/
theorem long_record_accepted :
    projectionRecord flechetteBackend (fun _ _ => 0) readLongStream
        (fun batch => .ok batch.columns) longStream intSchema = .ok longBatch.columns ∧
      readLongStream longStream = .ok longBatch ∧ ¬SameSchemas true longBatch.schema intSchema := by
  have decoded : readLongStream longStream = .ok longBatch := if_pos rfl
  have walk : projectionEnvelope (longStream.length + 1) longStream = .ok (some ()) := by
    decide +kernel
  have full : OneFullRow intSchema longBatch := by
    refine ⟨rfl, fun index field found _ => ?_⟩
    cases index with
    | zero => rfl
    | succ index => cases found
  have alike := flechette_leaves_alike (fun _ _ => 0) true (text "n") false (.int 64 true)
    (.int 32 true)
  refine ⟨(projectionRecord_ok_iff _ _ _ _ _ _ _).mpr
    ⟨longBatch, walk, decoded, rfl, full, alike⟩, decoded, fun same => ?_⟩
  obtain ⟨_, _, _, sameType, _⟩ := same.fields
  cases sameType

end VgiWorker.Arrow.EmbeddedRecords
