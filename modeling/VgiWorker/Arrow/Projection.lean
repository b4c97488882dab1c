import VgiWorker.Arrow.Codec
import VgiWorker.Data.Result
import VgiWorker.Data.Selection

/-!
# Projection by column index

Schemas and batches narrowed to the columns of a list of projection ids, in the two
backends.
-/

set_option autoImplicit false

namespace VgiWorker.Arrow.Projection

open VgiWorker.Js

/-- The ids of columns; `-1` is the row id and stands for none. -/
def inRange (projectionIds : List Int) (fieldCount : Nat) : List Nat :=
  projectionIds.filterMap fun id : Int =>
    if 0 ≤ id ∧ id < fieldCount then some id.toNat else none

def validateProjectionIds (caller : String) (projectionIds : List Int) (fieldCount : Nat) :
    Except Text (List Nat) :=
  match projectionIds.find? fun id => decide (id < -1) with
  | some id => .error (text caller ++ text ": unexpected negative projection ID " ++
      Number.decimalInt id ++ text " (only -1 for row_id is allowed)")
  | none => .ok (inRange projectionIds fieldCount)

/-- `projectSchema`, which is the same in both backends. -/
def projectSchema (projectionIds : Option (List Int)) (schema : Schema) : Except Text Schema :=
  match projectionIds with
  | none => .ok schema
  | some ids => do
      let validIds ← validateProjectionIds "projectSchema" ids schema.fields.length
      if validIds.isEmpty then .ok schema else .ok ⟨pick schema.fields validIds, schema.metadata⟩

/-- `projectBatch` of the arrow-js backend. -/
def projectBatchArrowJs (projectionIds : Option (List Int)) (batch : Batch) :
    Except Text Batch :=
  match projectionIds with
  | none => .ok batch
  | some ids => do
      let validIds ← validateProjectionIds "projectBatch" ids batch.schema.fields.length
      if validIds.isEmpty then .ok batch
      else do
        let schema ← projectSchema projectionIds batch.schema
        .ok ⟨schema, pick batch.columns validIds, batch.numRows, none⟩

/-- `projectBatch` of the flechette backend: the columns are found by name, and a table has the
rows of its first column. -/
def projectBatchFlechette (projectionIds : Option (List Int)) (batch : Batch) :
    Except Text Batch :=
  match projectionIds with
  | none => .ok batch
  | some ids => do
      let valid ← validateProjectionIds "projectBatch" ids batch.schema.fields.length
      if valid.isEmpty then .ok batch
      else
        let fields := pick batch.schema.fields valid
        let columns := fields.filterMap fun field => batch.getChild field.name
        .ok ⟨⟨fields, batch.schema.metadata⟩, columns, (columns.head?.map List.length).getD 0, none⟩

/-! ## The columns that are selected -/

/-- One column for each field, each with the rows of the batch. -/
structure Shaped (batch : Batch) : Prop where
  columns : batch.columns.length = batch.schema.fields.length
  rows : ∀ column ∈ batch.columns, column.length = batch.numRows

/-- The columns at the ids in range, in that order, with their fields and all their rows. -/
structure Selects (ids : List Int) (batch projected : Batch) : Prop where
  fields : projected.schema.fields =
    pick batch.schema.fields (inRange ids batch.schema.fields.length)
  metadata : projected.schema.metadata = batch.schema.metadata
  columns : projected.columns = pick batch.columns (inRange ids batch.schema.fields.length)
  numRows : projected.numRows = batch.numRows

/-- Ids that a projection takes: none below the row id, at least one of a column. -/
structure Takes (ids : List Int) (fieldCount : Nat) : Prop where
  allowed : ∀ id ∈ ids, -1 ≤ id
  column : ∃ id ∈ ids, 0 ≤ id ∧ id < fieldCount

/-- Ids that leave a schema whole: none of a column, or those of all columns in order. -/
structure LeavesWhole (ids : List Int) (fieldCount : Nat) : Prop where
  allowed : ∀ id ∈ ids, -1 ≤ id
  whole : inRange ids fieldCount = [] ∨ inRange ids fieldCount = List.range fieldCount

/-- The ids of `others` in the batch projected by `ids`, as ids in the batch. -/
def composedIds (ids others : List Int) (fieldCount : Nat) : List Int :=
  (pick (inRange ids fieldCount) (inRange others (inRange ids fieldCount).length)).map Int.ofNat

private theorem inRange_lt (ids : List Int) (fieldCount : Nat) :
    ∀ position ∈ inRange ids fieldCount, position < fieldCount := by
  intro position member
  obtain ⟨id, _, isHere⟩ := List.mem_filterMap.mp member
  split at isHere
  · rename_i inside
    cases isHere
    omega
  · cases isHere

private theorem inRange_ne_nil (ids : List Int) (fieldCount : Nat) (takes : Takes ids fieldCount) :
    inRange ids fieldCount ≠ [] := by
  obtain ⟨id, member, inside⟩ := takes.column
  exact List.ne_nil_of_mem (List.mem_filterMap.mpr ⟨id, member, if_pos inside⟩ :
    id.toNat ∈ inRange ids fieldCount)

private theorem validateProjectionIds_eq (caller : String) (ids : List Int) (fieldCount : Nat)
    (allowed : ∀ id ∈ ids, -1 ≤ id) :
    validateProjectionIds caller ids fieldCount = .ok (inRange ids fieldCount) := by
  have none : ids.find? (fun id => decide (id < -1)) = none := by
    rw [List.find?_eq_none]
    intro id member
    have := allowed id member
    simpa using this
  rw [validateProjectionIds, none]

private theorem allowed_of_validated (caller : String) (ids : List Int) (fieldCount : Nat)
    (valid : List Nat) (validated : validateProjectionIds caller ids fieldCount = .ok valid) :
    ∀ id ∈ ids, -1 ≤ id := by
  intro id member
  unfold validateProjectionIds at validated
  split at validated
  · cases validated
  · rename_i none
    have kept := List.find?_eq_none.mp none id member
    simpa using kept

/-- A projection gives a schema of distinct names back exactly when its ids leave it whole. -/
theorem projectSchema_whole_iff (ids : List Int) (schema : Schema)
    (distinct : (schema.fields.map FieldOf.name).Nodup) :
    projectSchema (some ids) schema = .ok schema ↔ LeavesWhole ids schema.fields.length := by
  have picked := pick_eq_self_iff schema.fields (distinct.of_map FieldOf.name)
    (inRange ids schema.fields.length) (inRange_lt ids schema.fields.length)
  constructor
  · intro whole
    obtain ⟨valid, validated, whole⟩ := except_bind_ok _ _ _ whole
    have allowed := allowed_of_validated _ ids _ valid validated
    rw [validateProjectionIds_eq _ ids _ allowed] at validated
    cases validated
    refine ⟨allowed, ?_⟩
    split at whole
    · rename_i nothing
      exact .inl (List.isEmpty_iff.mp nothing)
    · exact .inr (picked.mp (congrArg Schema.fields (Except.ok.inj whole)))
  · rintro ⟨allowed, whole⟩
    rw [projectSchema, validateProjectionIds_eq _ ids _ allowed, except_ok_bind]
    split
    · rfl
    · rename_i some
      rcases whole with none | all
      · exact absurd (List.isEmpty_iff.mpr none) some
      · rw [picked.mpr all]

theorem projectSchema_eq (ids : List Int) (schema : Schema)
    (takes : Takes ids schema.fields.length) :
    projectSchema (some ids) schema =
      .ok ⟨pick schema.fields (inRange ids schema.fields.length), schema.metadata⟩ := by
  rw [projectSchema, validateProjectionIds_eq _ ids _ takes.allowed, except_ok_bind, if_neg]
  rw [List.isEmpty_iff]
  exact inRange_ne_nil ids _ takes

theorem projectBatchArrowJs_eq (ids : List Int) (batch : Batch)
    (takes : Takes ids batch.schema.fields.length) :
    projectBatchArrowJs (some ids) batch =
      .ok ⟨⟨pick batch.schema.fields (inRange ids batch.schema.fields.length),
          batch.schema.metadata⟩,
        pick batch.columns (inRange ids batch.schema.fields.length), batch.numRows, none⟩ := by
  rw [projectBatchArrowJs, validateProjectionIds_eq _ ids _ takes.allowed, except_ok_bind, if_neg,
    projectSchema_eq ids batch.schema takes, except_ok_bind]
  rw [List.isEmpty_iff]
  exact inRange_ne_nil ids _ takes

private theorem columns_by_name (batch : Batch) (shaped : Shaped batch) (positions : List Nat)
    (inside : ∀ position ∈ positions, position < batch.schema.fields.length)
    (first : ∀ position ∈ positions, FirstOfName batch.schema.fields position) :
    ((pick batch.schema.fields positions).filterMap fun field => batch.getChild field.name) =
      pick batch.columns positions := by
  induction positions with
  | nil => rfl
  | cons position rest ih =>
      have isField := List.getElem?_eq_getElem (inside position List.mem_cons_self)
      have isColumn := List.getElem?_eq_getElem
        (shaped.columns ▸ inside position List.mem_cons_self)
      have found := getChild_firstOfName batch position _ isField (first position List.mem_cons_self)
      rw [pick_cons_some _ position rest _ isField,
        List.filterMap_cons, found.trans isColumn, pick_cons_some _ position rest _ isColumn]
      simp only [ih (fun other member => inside other (List.mem_cons_of_mem _ member))
        fun other member => first other (List.mem_cons_of_mem _ member)]

private theorem inRange_ofNat (positions : List Nat) (fieldCount : Nat)
    (inside : ∀ position ∈ positions, position < fieldCount) :
    inRange (positions.map Int.ofNat) fieldCount = positions := by
  induction positions with
  | nil => rfl
  | cons position rest ih =>
      have here := inside position List.mem_cons_self
      have later := ih fun other member => inside other (List.mem_cons_of_mem _ member)
      rw [inRange] at later ⊢
      rw [List.map_cons, List.filterMap_cons,
        if_pos ⟨Int.natCast_nonneg position, by simpa using here⟩]
      simp only [later]
      rfl

private theorem composed_takes (ids others : List Int) (fieldCount : Nat)
    (takes : Takes others (inRange ids fieldCount).length) :
    inRange (composedIds ids others fieldCount) fieldCount =
        pick (inRange ids fieldCount) (inRange others (inRange ids fieldCount).length) ∧
      Takes (composedIds ids others fieldCount) fieldCount := by
  have inside : ∀ position ∈ pick (inRange ids fieldCount)
      (inRange others (inRange ids fieldCount).length), position < fieldCount := by
    intro position member
    obtain ⟨other, _, isHere⟩ := List.mem_filterMap.mp member
    exact inRange_lt ids fieldCount position (List.mem_of_getElem? isHere)
  have filled : pick (inRange ids fieldCount) (inRange others (inRange ids fieldCount).length) ≠
      [] := by
    intro none
    have lengths := length_pick (inRange ids fieldCount) _ (inRange_lt others _)
    rw [none] at lengths
    exact inRange_ne_nil others _ takes (List.length_eq_zero_iff.mp lengths.symm)
  rw [composedIds]
  generalize pick (inRange ids fieldCount) (inRange others (inRange ids fieldCount).length) =
    positions at inside filled
  refine ⟨inRange_ofNat positions fieldCount inside, fun id member => ?_, ?_⟩
  · obtain ⟨position, _, rfl⟩ := List.mem_map.mp member
    exact le_trans (by decide) (Int.natCast_nonneg position)
  · obtain ⟨position, member⟩ := List.exists_mem_of_ne_nil positions filled
    exact ⟨position, List.mem_map_of_mem member, Int.natCast_nonneg position,
      Int.ofNat_lt.mpr (inside position member)⟩

/-- With ids of the row id and of columns, a projection selects the columns that the ids name, its
schema is the projected schema, and a projection of it is one projection; the two backends agree
where each selected column is the first of its name. -/
theorem projection_selects (batch : Batch) (shaped : Shaped batch) (ids : List Int)
    (takes : Takes ids batch.schema.fields.length) :
    ∃ projected, projectBatchArrowJs (some ids) batch = .ok projected ∧
      Selects ids batch projected ∧
      projectSchema (some ids) batch.schema = .ok projected.schema ∧
      (∀ others, Takes others projected.schema.fields.length →
        projectBatchArrowJs (some others) projected =
          projectBatchArrowJs (some (composedIds ids others batch.schema.fields.length)) batch) ∧
      ((∀ position ∈ inRange ids batch.schema.fields.length,
          FirstOfName batch.schema.fields position) →
        projectBatchFlechette (some ids) batch = .ok projected) := by
  have inside := inRange_lt ids batch.schema.fields.length
  have nonempty := inRange_ne_nil ids _ takes
  have insideColumns : ∀ position ∈ inRange ids batch.schema.fields.length,
      position < batch.columns.length := by
    rw [shaped.columns]
    exact inside
  refine ⟨_, projectBatchArrowJs_eq ids batch takes, ⟨rfl, rfl, rfl, rfl⟩,
    projectSchema_eq ids batch.schema takes, ?_, ?_⟩
  · intro others takesOthers
    rw [length_pick _ _ inside] at takesOthers
    obtain ⟨composed, takesComposed⟩ := composed_takes ids others _ takesOthers
    rw [projectBatchArrowJs_eq others _ (by rwa [length_pick _ _ inside]),
      projectBatchArrowJs_eq _ batch takesComposed, composed]
    simp only [length_pick _ _ inside]
    rw [pick_pick _ _ _ inside, pick_pick batch.columns _ _ insideColumns]
  · intro first
    have columns := columns_by_name batch shaped _ inside first
    rw [projectBatchFlechette, validateProjectionIds_eq _ ids _ takes.allowed, except_ok_bind,
      if_neg (by rwa [List.isEmpty_iff])]
    simp only [columns]
    have rows : ((pick batch.columns (inRange ids batch.schema.fields.length)).head?.map
        List.length).getD 0 = batch.numRows := by
      have lengths := length_pick batch.columns _ insideColumns
      cases picked : pick batch.columns (inRange ids batch.schema.fields.length) with
      | nil =>
          rw [picked] at lengths
          exact absurd (List.length_eq_zero_iff.mp lengths.symm) nonempty
      | cons column rest =>
          have member : column ∈ pick batch.columns (inRange ids batch.schema.fields.length) := by
            rw [picked]
            exact List.mem_cons_self
          obtain ⟨position, _, isHere⟩ := List.mem_filterMap.mp member
          exact shaped.rows column (List.mem_of_getElem? isHere)
    rw [rows]

/-- Two columns of one name. -/
private def sampleBatch : Batch :=
  ⟨⟨[⟨text "a", .bool, true, .empty⟩, ⟨text "a", .utf8, true, .empty⟩], .empty⟩,
    [[.bool true, .null], [.string (text "x"), .string (text "y")]], 2, none⟩

private theorem sampleBatch_shaped : Shaped sampleBatch :=
  ⟨rfl, by simp [sampleBatch]⟩

theorem projection_selects_sample :
    ∃ projected, projectBatchArrowJs (some [1, -1, 0, 7]) sampleBatch = .ok projected ∧
      projected.columns = [[.string (text "x"), .string (text "y")], [.bool true, .null]] := by
  have takes : Takes [1, -1, 0, 7] sampleBatch.schema.fields.length :=
    ⟨by decide, 1, by decide, by decide⟩
  obtain ⟨projected, isProjected, selects, _⟩ :=
    projection_selects sampleBatch sampleBatch_shaped [1, -1, 0, 7] takes
  exact ⟨projected, isProjected, selects.columns⟩

/-- An id below the row id fails the projection, though another one is in range. -/
theorem negative_id_refused :
    Shaped sampleBatch ∧ 0 < sampleBatch.schema.fields.length ∧
      projectBatchArrowJs (some [0, -2]) sampleBatch = .error (text
        "projectBatch: unexpected negative projection ID -2 (only -1 for row_id is allowed)") ∧
      projectBatchFlechette (some [0, -2]) sampleBatch = .error (text
        "projectBatch: unexpected negative projection ID -2 (only -1 for row_id is allowed)") :=
  ⟨sampleBatch_shaped, by decide, rfl, rfl⟩

end VgiWorker.Arrow.Projection
