import VgiWorker.Arrow.RewrittenColumns
import VgiWorker.Functions.FilteringCollector

/-!
# Filtered rows

When the rows that a filter keeps can be built anew, and what the new batch has.
-/

set_option autoImplicit false

namespace VgiWorker.Functions

open VgiWorker.Js VgiWorker.Arrow VgiWorker.FilterPushdown

section

variable {library : VectorLibrary} (nested : Nested.NestedVectors library)
  (dateText : Number → Text)

/-- The values that a field is built of, which are those of the last field of its name. -/
def valuesOf (columns : List (Text × List Rich)) (field : Field) : List Rich :=
  (lookupEntry (objectOf columns) field.name).getD []

/-- No row is dropped, or none is kept, or there is a column, and the kept cells of each have rich
values that the writer takes. -/
def Rebuilds (batch : Batch) (mask : List Bool) : Prop :=
  (∀ keep ∈ mask, keep = true) ∨ survivors batch mask = [] ∨
    batch.schema.fields ≠ [] ∧ ∃ columns,
      batch.schema.fields.mapM (richColumn dateText batch (survivors batch mask)) = .ok columns ∧
        ∀ field ∈ batch.schema.fields, ∃ cells,
          Nested.columnCells nested dateText field.type (valuesOf columns field) = .ok cells

/-! ## The columns of the kept rows -/

private theorem richColumn_ok (batch : Batch) (indices : List Nat) (field : Field)
    (column : Text × List Rich) (converted : richColumn dateText batch indices field = .ok column) :
    column.1 = field.name ∧ column.2.length = indices.length := by
  obtain ⟨values, each, converted⟩ := except_bind_ok _ _ _ converted
  cases converted
  exact ⟨rfl, ((except_mapM_iff _ _ _).mp each).length_eq.symm⟩

private theorem valuesOf_source (batch : Batch) (indices : List Nat)
    (columns : List (Text × List Rich))
    (converted : batch.schema.fields.mapM (richColumn dateText batch indices) = .ok columns)
    (field : Field) (member : field ∈ batch.schema.fields) :
    lookupEntry (objectOf columns) field.name = some (valuesOf columns field) ∧
      ∃ other ∈ batch.schema.fields, other.name = field.name ∧
        richColumn dateText batch indices other = .ok (field.name, valuesOf columns field) := by
  have isKey : field.name ∈ columns.map Prod.fst := by
    obtain ⟨index, here⟩ := List.mem_iff_getElem?.mp member
    obtain ⟨column, isColumn, made⟩ := except_mapM_getElem? _ _ _ converted index field here
    rw [← (richColumn_ok dateText batch indices field column made).1]
    exact List.mem_map_of_mem (List.mem_of_getElem? isColumn)
  obtain ⟨values, isValues, found⟩ := lookup_objectOf columns field.name isKey
  obtain ⟨other, isOther, made⟩ := except_mapM_sources _ _ _ converted _ isValues
  have named := (richColumn_ok dateText batch indices other _ made).1
  rw [valuesOf, found, Option.getD_some]
  exact ⟨rfl, other, isOther, named.symm, made⟩

private theorem length_valuesOf (batch : Batch) (indices : List Nat)
    (columns : List (Text × List Rich))
    (converted : batch.schema.fields.mapM (richColumn dateText batch indices) = .ok columns)
    (field : Field) (member : field ∈ batch.schema.fields) :
    (valuesOf columns field).length = indices.length := by
  obtain ⟨_, other, _, _, made⟩ :=
    valuesOf_source dateText batch indices columns converted field member
  exact (richColumn_ok dateText batch indices other _ made).2

/-! ## The new batch -/

private theorem allKept_iff (batch : Batch) (mask : List Bool)
    (whole : mask.length = batch.numRows) :
    (survivors batch mask).length = batch.numRows ↔ ∀ keep ∈ mask, keep = true := by
  have all := length_keepMasked_eq_iff (List.range batch.numRows) mask
    (whole.trans List.length_range.symm)
  rwa [List.length_range] at all

/-- Some rows are kept and others are not. -/
private theorem filterBatch_some_iff (batch : Batch) (mask : List Bool)
    (whole : mask.length = batch.numRows) (dropped : ¬∀ keep ∈ mask, keep = true)
    (kept : survivors batch mask ≠ []) (filtered : Batch) :
    filterBatch nested dateText batch mask = .ok filtered ↔ ∃ columns,
      batch.schema.fields.mapM (richColumn dateText batch (survivors batch mask)) = .ok columns ∧
        Nested.batchFromColumns nested dateText (objectOf columns) batch.schema = .ok filtered := by
  have fewer : ¬(keepMasked (List.range batch.numRows) mask).length = batch.numRows :=
    mt (allKept_iff batch mask whole).mp dropped
  have some : ¬keepMasked (List.range batch.numRows) mask = [] := kept
  unfold filterBatch
  simp only [if_neg fewer, if_neg some]
  constructor
  · intro made
    obtain ⟨columns, converted, made⟩ := except_bind_ok _ _ _ made
    exact ⟨columns, (except_mapError_ok _ _ _).mp converted, (except_mapError_ok _ _ _).mp made⟩
  · rintro ⟨columns, converted, made⟩
    rw [survivors] at converted
    rw [(except_mapError_ok _ _ _).mpr converted, except_ok_bind]
    exact (except_mapError_ok _ _ _).mpr made

private theorem filterBatch_all (batch : Batch) (mask : List Bool)
    (whole : mask.length = batch.numRows) (all : ∀ keep ∈ mask, keep = true) :
    filterBatch nested dateText batch mask = .ok batch :=
  if_pos ((allKept_iff batch mask whole).mpr all)

private theorem filterBatch_none (batch : Batch) (mask : List Bool)
    (whole : mask.length = batch.numRows) (dropped : ¬∀ keep ∈ mask, keep = true)
    (none : survivors batch mask = []) :
    filterBatch nested dateText batch mask = .ok (emptyBatch batch.schema) := by
  have fewer : ¬(keepMasked (List.range batch.numRows) mask).length = batch.numRows :=
    mt (allKept_iff batch mask whole).mp dropped
  have empty : keepMasked (List.range batch.numRows) mask = [] := none
  unfold filterBatch
  simp only [if_neg fewer, if_pos empty]

/-- The metadata that a filtered batch itself still carries. -/
theorem metadata_filterBatch (batch : Batch) (mask : List Bool)
    (whole : mask.length = batch.numRows) (filtered : Batch)
    (made : filterBatch nested dateText batch mask = .ok filtered) :
    filtered.metadata.getD .empty =
      if ∀ keep ∈ mask, keep = true then batch.metadata.getD .empty else .empty := by
  by_cases all : ∀ keep ∈ mask, keep = true
  · rw [filterBatch_all nested dateText batch mask whole all] at made
    cases made
    rw [if_pos all]
  · rw [if_neg all]
    by_cases none : survivors batch mask = []
    · rw [filterBatch_none nested dateText batch mask whole all none] at made
      cases made
      rfl
    · obtain ⟨columns, converted, made⟩ :=
        (filterBatch_some_iff nested dateText batch mask whole all none filtered).mp made
      obtain ⟨children, _, rfl⟩ := (Nested.batchFromColumns_iff nested dateText _ batch.schema
        (valuesOf columns) (fun field member =>
          (valuesOf_source dateText batch _ columns converted field member).1) filtered).mp made
      rfl

/-- A batch of the kept rows is made exactly where these can be built anew. -/
theorem filterBatch_iff_rebuilds (batch : Batch) (mask : List Bool)
    (whole : mask.length = batch.numRows) :
    (∃ filtered, filterBatch nested dateText batch mask = .ok filtered ∧
        filtered.numRows = (survivors batch mask).length) ↔
      Rebuilds nested dateText batch mask := by
  by_cases all : ∀ keep ∈ mask, keep = true
  · refine iff_of_true ⟨batch, filterBatch_all nested dateText batch mask whole all, ?_⟩ (.inl all)
    exact ((allKept_iff batch mask whole).mpr all).symm
  · by_cases none : survivors batch mask = []
    · refine iff_of_true ⟨_, filterBatch_none nested dateText batch mask whole all none, ?_⟩
        (.inr (.inl none))
      rw [none]
      rfl
    · have made (filtered : Batch) :=
        filterBatch_some_iff nested dateText batch mask whole all none filtered
      have built (columns : List (Text × List Rich)) (filtered : Batch) (converted :
          batch.schema.fields.mapM (richColumn dateText batch (survivors batch mask)) =
            .ok columns) :=
        Nested.batchFromColumns_iff nested dateText (objectOf columns) batch.schema
          (valuesOf columns) (fun field member =>
            (valuesOf_source dateText batch _ columns converted field member).1) filtered
      constructor
      · rintro ⟨filtered, isFiltered, rows⟩
        obtain ⟨columns, converted, fromColumns⟩ := (made filtered).mp isFiltered
        obtain ⟨children, each, rfl⟩ := (built columns filtered converted).mp fromColumns
        refine .inr (.inr ⟨fun noField => ?_, columns, converted, fun field member => ?_⟩)
        · rw [noField] at rows
          exact none (List.length_eq_zero_iff.mp rows.symm)
        · obtain ⟨index, here⟩ := List.mem_iff_getElem?.mp member
          obtain ⟨cells, _, isCells⟩ := forall₂_getElem? each index field here
          exact ⟨cells, isCells⟩
      · rintro (kept | noRow | ⟨some, columns, converted, each⟩)
        · exact absurd kept all
        · exact absurd noRow none
        · obtain ⟨children, related⟩ := except_mapM_exists (fun field : Field =>
            Nested.columnCells nested dateText field.type (valuesOf columns field))
            batch.schema.fields each
          refine ⟨_, (made _).mpr ⟨columns, converted, (built columns _ converted).mpr
            ⟨children, (except_mapM_iff _ _ _).mp related, rfl⟩⟩, ?_⟩
          cases fields : batch.schema.fields with
          | nil => exact absurd fields some
          | cons field rest =>
              exact length_valuesOf dateText batch _ columns converted field
                (by rw [fields]; exact List.mem_cons_self)

/-! ## Canonical cells -/

/-- Every date in a kept row is one that a `Date` holds. -/
def KeptDatesFit (batch : Batch) (mask : List Bool) : Prop :=
  ∀ (position : Nat) field column, batch.schema.fields[position]? = some field →
    batch.columns[position]? = some column → ∀ row ∈ survivors batch mask,
      DatesFit field.type (readCanonicalValue column row)

/-- Of canonical cells the kept rows can be built anew exactly where their dates fit. -/
theorem rebuilds_iff_datesFit (batch : Batch) (canonical : Nested.HoldsCanonical batch)
    (mask : List Bool) :
    Rebuilds nested dateText batch mask ↔
      (∀ keep ∈ mask, keep = true) ∨ survivors batch mask = [] ∨
        batch.schema.fields ≠ [] ∧ KeptDatesFit batch mask := by
  have inside : ∀ row ∈ survivors batch mask, row < batch.numRows := fun row member =>
    List.mem_range.mp (mem_of_keepMasked _ mask row member)
  -- The column of a field, its cells in the kept rows, and their rich values.
  have held (position : Nat) (field : Field)
      (here : batch.schema.fields[position]? = some field) :
      ∃ column, batch.columns[position]? = some column ∧ Nested.Rewritable field.type ∧
        (∀ cell ∈ (survivors batch mask).map (readCanonicalValue column),
          CanonicalOf field.type cell) ∧
        richColumn dateText batch (survivors batch mask) field =
          ((survivors batch mask).map (readCanonicalValue column)).mapM
            (canonicalToRich dateText field.type) >>= fun values => .ok (field.name, values) := by
    obtain ⟨column, isColumn, rewritable, length, cells⟩ :=
      forall₂_getElem? canonical.columns position field here
    refine ⟨column, isColumn, rewritable, fun cell member => ?_, ?_⟩
    · obtain ⟨row, isRow, rfl⟩ := List.mem_map.mp member
      have within : row < column.length := length ▸ inside row isRow
      rw [readCanonicalValue, List.getElem?_eq_getElem within]
      exact cells _ (List.getElem_mem within)
    · rw [richColumn, getChild_nodup batch canonical.distinct position field here, isColumn,
        List.mapM_map]
      rfl
  refine or_congr_right (or_congr_right (and_congr_right fun _ => ?_))
  constructor
  · rintro ⟨columns, converted, _⟩ position field column here isColumn row isRow
    obtain ⟨other, isOther, rewritable, cells, made⟩ := held position field here
    cases isOther.symm.trans isColumn
    obtain ⟨values, _, isValues⟩ := except_mapM_getElem? _ _ _ converted position field here
    rw [made] at isValues
    obtain ⟨rich, isRich, _⟩ := except_bind_ok _ _ _ isValues
    exact (Nested.cells_convert_iff dateText field.type (Nested.alike_of_rewritable _ rewritable) _
      cells).mp ⟨rich, isRich⟩ _ (List.mem_map_of_mem isRow)
  · intro fit
    have converts : ∀ field ∈ batch.schema.fields, ∃ values,
        richColumn dateText batch (survivors batch mask) field = .ok (field.name, values) ∧
          ∃ cells, Nested.columnCells nested dateText field.type values = .ok cells := by
      intro field member
      obtain ⟨position, here⟩ := List.mem_iff_getElem?.mp member
      obtain ⟨column, isColumn, rewritable, cells, made⟩ := held position field here
      obtain ⟨values, isValues⟩ := (Nested.cells_convert_iff dateText field.type
        (Nested.alike_of_rewritable _ rewritable) _ cells).mpr fun cell isCell => by
          obtain ⟨row, isRow, rfl⟩ := List.mem_map.mp isCell
          exact fit position field column here isColumn row isRow
      refine ⟨values, by rw [made, isValues, except_ok_bind], _,
        Nested.columnCells_canonical nested dateText field.type rewritable _ cells values isValues⟩
    obtain ⟨columns, converted⟩ := except_mapM_exists
      (richColumn dateText batch (survivors batch mask)) batch.schema.fields
      fun field member => by
        obtain ⟨values, made, _⟩ := converts field member
        exact ⟨_, made⟩
    refine ⟨columns, converted, fun field member => ?_⟩
    obtain ⟨_, other, isOther, same, made⟩ :=
      valuesOf_source dateText batch _ columns converted field member
    obtain rfl := List.inj_on_of_nodup_map canonical.distinct isOther member same
    obtain ⟨values, isValues, written⟩ := converts other isOther
    cases isValues.symm.trans made
    exact written

end

end VgiWorker.Functions
