import VgiWorker.Arrow.RowReading
import VgiWorker.Data.Result
import VgiWorker.Functions.ClientBatches
import VgiWorker.Js.OrderedMapRuns

/-!
# Batches and rows of the client

When the batch form of a call yields the worker's batches: the schema that bind answered
has to be the one the worker emits, and the codec has to keep the rows.
-/

set_option autoImplicit false

namespace VgiWorker.Functions.ClientBatches

open VgiWorker.Js VgiWorker.Arrow

section

variable {library : VectorLibrary} (nested : Nested.NestedVectors library)
  (dateText : Number → Text)

/-! ## What is required of the rows -/

/-- The values of a column in the rows. -/
def memberValues (rows : List RichRow) (name : Text) : List Rich :=
  rows.map fun row => (lookupEntry row name).getD .null

/-- One value for each field, read at a place of the first column of its name. -/
def ReadBack (schema : Schema) (columns : List Column) (index : Nat)
    (values : List (Text × Rich)) : Prop :=
  List.Forall₂ (fun field value => value.1 = field.name ∧
    ∃ position column, schema.fields.findIdx? (fun other => other.name = field.name) =
        some position ∧ columns[position]? = some column ∧
      canonicalToRich dateText field.type (readCanonicalValue column index) = .ok value.2)
    schema.fields values

/-- The codec writes every column of the rows, and gives each row its members back. -/
def Kept (schema : Schema) (rows : List RichRow) : Prop :=
  ∃ columns : List Column,
    List.Forall₂ (fun field column =>
      Nested.columnCells nested dateText field.type (memberValues rows field.name) = .ok column)
      schema.fields columns ∧
    ∀ index row, rows[index]? = some row → ∃ values, ReadBack dateText schema columns index values ∧
      ∀ field ∈ schema.fields, OrderedMap.lastOf values field.name = lookupEntry row field.name

/-! ## Rows of a batch -/

private theorem lookup_row (row : RichRow) (values : List (Text × Rich))
    (same : row = objectOf values) (name : Text) :
    lookupEntry row name = OrderedMap.lastOf values name := by
  subst same
  have found := OrderedMap.get?_setAll (OrderedMap.empty : OrderedMap Text Rich) values name
  rw [OrderedMap.get?_empty, Option.or_none] at found
  exact found

/-- A row of one batch is the row of another of the same fields exactly when the other's members
are the row's. -/
private theorem rowAt_same_iff (batch other : Batch) (fields : batch.schema.fields =
    other.schema.fields) (index place : Nat) (row : RichRow)
    (isRow : rowAt dateText batch index = .ok row) :
    rowAt dateText other place = .ok row ↔
      ∃ values, RowMembers dateText other place other.schema.fields values ∧
        ∀ field ∈ other.schema.fields,
          OrderedMap.lastOf values field.name = lookupEntry row field.name := by
  obtain ⟨held, members, same⟩ := (rowAt_iff dateText batch index row).mp isRow
  have isHeld := lookup_row row held same
  have heldNames := rowMembers_names dateText batch index _ held members
  rw [rowAt_iff]
  constructor
  · rintro ⟨values, others, equal⟩
    refine ⟨values, others, fun field member => ?_⟩
    exact (lookup_row row values equal field.name).symm
  · rintro ⟨values, others, agree⟩
    refine ⟨values, others, ?_⟩
    have names := rowMembers_names dateText other place _ values others
    have equal := (OrderedMap.setAll_eq_iff held values (by rw [heldNames, names, fields])).mpr
      fun name member => by
        rw [heldNames, fields] at member
        obtain ⟨field, isField, rfl⟩ := List.mem_map.mp member
        rw [agree field isField, isHeld]
    exact same.trans (congrArg OrderedMap.entries equal)

/-! ## The batch of the rows -/

private theorem lookup_fields {Held : Type} (fields : List Field) (held : Text → Held)
    (field : Field) (member : field ∈ fields) :
    lookupEntry (fields.map fun other => (other.name, held other.name)) field.name =
      some (held field.name) := by
  induction fields with
  | nil => cases member
  | cons first rest ih =>
      rw [List.map_cons, lookupEntry]
      split
      · rename_i same
        exact congrArg (fun name => some (held name)) same
      · rename_i differs
        rcases List.mem_cons.mp member with rfl | member
        · exact absurd rfl differs
        · exact ih member

private theorem batchFromRows_iff (schema : Schema) (rows : List RichRow) (nonempty : rows ≠ [])
    (batch : Batch) :
    batchFromRows nested dateText schema rows = .ok batch ↔
      ∃ columns, List.Forall₂ (fun field column =>
          Nested.columnCells nested dateText field.type (memberValues rows field.name) = .ok column)
          schema.fields columns ∧
        batch = ⟨schema, columns, if schema.fields = [] then 0 else rows.length, none⟩ := by
  have numRows : (schema.fields.head?.map fun field =>
      (memberValues rows field.name).length).getD 0 = if schema.fields = [] then 0 else rows.length := by
    cases schema.fields with
    | nil => rfl
    | cons field rest =>
        rw [if_neg (by simp)]
        exact List.length_map _
  rw [batchFromRows, if_neg (by simpa using nonempty), ← numRows]
  exact Nested.batchFromColumns_iff nested dateText _ schema
    (fun field => memberValues rows field.name)
    (fun field member => lookup_fields schema.fields (memberValues rows) field member) batch

/-! ## One group of rows -/

private theorem forall₂_congr_mem {Left Right : Type} (relates others : Left → Right → Prop)
    (lefts : List Left) (rights : List Right)
    (same : ∀ left ∈ lefts, ∀ right, relates left right ↔ others left right) :
    List.Forall₂ relates lefts rights ↔ List.Forall₂ others lefts rights := by
  induction lefts generalizing rights with
  | nil => exact ⟨fun related => by cases related; exact .nil, fun related => by cases related; exact .nil⟩
  | cons left rest ih =>
      cases rights with
      | nil => exact ⟨nofun, nofun⟩
      | cons right rights =>
          rw [List.forall₂_cons, List.forall₂_cons, same left List.mem_cons_self right,
            ih rights fun other member => same other (List.mem_cons_of_mem _ member)]

private theorem members_iff_readBack (schema : Schema) (columns : List Column) (numRows index : Nat)
    (values : List (Text × Rich)) (length : schema.fields.length = columns.length) :
    RowMembers dateText ⟨schema, columns, numRows, none⟩ index schema.fields values ↔
      ReadBack dateText schema columns index values := by
  refine forall₂_congr_mem _ _ _ _ fun field member value => and_congr_right fun _ => ?_
  rw [memberOf, Batch.getChild]
  cases found : schema.fields.findIdx? fun other => other.name = field.name with
  | none =>
      have absent := List.findIdx?_eq_none_iff.mp found field member
      simp at absent
  | some position =>
      have within : position < columns.length := by
        rw [← length]
        exact (List.findIdx?_eq_some_iff_getElem.mp found).1
      have isColumn := List.getElem?_eq_getElem within
      rw [Option.bind_some, Batch.getChildAt, isColumn]
      constructor
      · exact fun converts => ⟨position, _, rfl, isColumn, converts⟩
      · rintro ⟨_, column, same, isOther, converts⟩
        cases same
        cases isOther.symm.trans isColumn
        exact converts

private theorem group_iff (outputSchema : Schema) (delivery : Delivery)
    (delivered : iterRows dateText delivery.batch = .ok delivery.rows) (nonempty : delivery.rows ≠ []) :
    (∃ batch, batchFromRows nested dateText outputSchema delivery.rows = .ok batch ∧
        batch.schema = delivery.batch.schema ∧ iterRows dateText batch = .ok delivery.rows) ↔
      delivery.batch.schema = outputSchema ∧ outputSchema.fields ≠ [] ∧
        Kept nested dateText outputSchema delivery.rows := by
  obtain ⟨_, isRow⟩ := (iterRows_iff dateText delivery.batch delivery.rows).mp delivered
  constructor
  · rintro ⟨batch, made, sameSchema, same⟩
    obtain ⟨columns, built, rfl⟩ := (batchFromRows_iff nested dateText outputSchema delivery.rows
      nonempty batch).mp made
    obtain ⟨numRows, each⟩ := (iterRows_iff dateText _ _).mp same
    have sameSchema : outputSchema = delivery.batch.schema := sameSchema
    refine ⟨sameSchema.symm, fun none => ?_, columns, built, fun index row here => ?_⟩
    · dsimp only at numRows
      rw [if_pos none] at numRows
      exact nonempty (List.length_eq_zero_iff.mp numRows.symm)
    · obtain ⟨values, members, agree⟩ := (rowAt_same_iff dateText delivery.batch _
        (congrArg Schema.fields sameSchema.symm) index index row (isRow index row here)).mp
        (each index row here)
      exact ⟨values, (members_iff_readBack dateText outputSchema columns _ index values
        built.length_eq).mp members, agree⟩
  · rintro ⟨sameSchema, some, columns, built, each⟩
    refine ⟨_, (batchFromRows_iff nested dateText outputSchema delivery.rows nonempty _).mpr
      ⟨columns, built, rfl⟩, sameSchema.symm, (iterRows_iff dateText _ _).mpr
      ⟨if_neg some, fun index row here => ?_⟩⟩
    obtain ⟨values, read, agree⟩ := each index row here
    exact (rowAt_same_iff dateText delivery.batch _ (congrArg Schema.fields sameSchema) index index
      row (isRow index row here)).mpr ⟨values, (members_iff_readBack dateText outputSchema columns _
        index values built.length_eq).mpr read, agree⟩

/-! ## Rows of canonical cells -/

/-- What a column holds of each cell is the cell. -/
def KeepsCells (library : VectorLibrary) (batch : Batch) : Prop :=
  ∀ (position : Nat) field column, batch.schema.fields[position]? = some field →
    batch.columns[position]? = some column → ∀ cell ∈ column,
      Nested.heldCell library field.type cell = cell

private theorem lastOf_at (names : List Text) (distinct : names.Nodup)
    (values : List (Text × Rich)) (named : values.map Prod.fst = names)
    (entry : Text × Rich) (member : entry ∈ values) :
    OrderedMap.lastOf values entry.1 = some entry.2 := by
  have reversed : (values.reverse.map Prod.fst).Nodup := by
    rw [List.map_reverse, List.nodup_reverse, named]
    exact distinct
  exact lookupEntry_of_mem values.reverse entry.1 entry.2 reversed (List.mem_reverse.mpr member)

/-- The rows hold the rich values of the cells. -/
private theorem memberValues_converted (batch : Batch) (canonical : Nested.HoldsCanonical batch)
    (rows : List RichRow) (read : iterRows dateText batch = .ok rows) (position : Nat)
    (field : Field) (column : Column) (here : batch.schema.fields[position]? = some field)
    (isColumn : batch.columns[position]? = some column) :
    column.mapM (canonicalToRich dateText field.type) = .ok (memberValues rows field.name) ∧
      ∀ (index : Nat) cell row, column[index]? = some cell → rows[index]? = some row →
        ∃ rich, lookupEntry row field.name = some rich ∧
          canonicalToRich dateText field.type cell = .ok rich := by
  obtain ⟨numRows, each⟩ := (iterRows_iff dateText batch rows).mp read
  obtain ⟨other, isOther, _, length, _⟩ := forall₂_getElem? canonical.columns position field here
  cases isOther.symm.trans isColumn
  have held : ∀ (index : Nat) cell row, column[index]? = some cell → rows[index]? = some row →
      ∃ rich, lookupEntry row field.name = some rich ∧
        canonicalToRich dateText field.type cell = .ok rich := by
    intro index cell row isCell isRow
    obtain ⟨values, members, same⟩ := (rowAt_iff dateText batch index row).mp (each index row isRow)
    obtain ⟨value, isValue, named, converts⟩ := forall₂_getElem? members position field here
    rw [memberOf_canonical dateText batch canonical position field here column isColumn,
      readCanonicalValue, isCell, Option.getD_some] at converts
    refine ⟨value.2, ?_, converts⟩
    rw [lookup_row row values same, ← named]
    exact lastOf_at _ canonical.distinct values
      (rowMembers_names dateText batch index _ values members) value (List.mem_of_getElem? isValue)
  refine ⟨(except_mapM_iff _ _ _).mpr (List.forall₂_iff_get.mpr ⟨?_, ?_⟩), held⟩
  · rw [memberValues, List.length_map, length, numRows]
  · intro index inside within
    rw [memberValues, List.length_map] at within
    obtain ⟨rich, found, converts⟩ := held index _ _ (List.getElem?_eq_getElem inside)
      (List.getElem?_eq_getElem within)
    simp only [memberValues, List.get_eq_getElem, List.getElem_map, found, Option.getD_some]
    exact converts

/-- The codec keeps the rows of canonical cells exactly where the columns hold the cells. -/
private theorem kept_iff_keepsCells (batch : Batch) (canonical : Nested.HoldsCanonical batch)
    (rows : List RichRow) (read : iterRows dateText batch = .ok rows) :
    Kept nested dateText batch.schema rows ↔ KeepsCells library batch := by
  obtain ⟨numRows, isRow⟩ := (iterRows_iff dateText batch rows).mp read
  have built : ∀ (position : Nat) field column, batch.schema.fields[position]? = some field →
      batch.columns[position]? = some column →
      Nested.columnCells nested dateText field.type (memberValues rows field.name) =
        .ok (column.map (Nested.heldCell library field.type)) := by
    intro position field column here isColumn
    obtain ⟨other, isOther, rewritable, _, cells⟩ :=
      forall₂_getElem? canonical.columns position field here
    cases isOther.symm.trans isColumn
    exact Nested.columnCells_canonical nested dateText field.type rewritable column cells _
      (memberValues_converted dateText batch canonical rows read position field column here
        isColumn).1
  constructor
  · rintro ⟨columns, written, each⟩ position field column here isColumn cell member
    obtain ⟨index, isCell⟩ := List.mem_iff_getElem?.mp member
    obtain ⟨other, isOther, rewritable, length, cells⟩ :=
      forall₂_getElem? canonical.columns position field here
    cases isOther.symm.trans isColumn
    have inside : index < rows.length := by
      rw [← numRows, ← length]
      exact (List.getElem?_eq_some_iff.mp isCell).1
    have isRow := List.getElem?_eq_getElem inside
    obtain ⟨rich, found, converts⟩ := (memberValues_converted dateText batch canonical rows read
      position field column here isColumn).2 index cell _ isCell isRow
    obtain ⟨values, readBack, agree⟩ := each index _ isRow
    obtain ⟨value, isValue, named, place, again, isPlace, isAgain, reads⟩ :=
      forall₂_getElem? readBack position field here
    have same : value.2 = rich := by
      have last := lastOf_at _ canonical.distinct values
        (rowMembers_names dateText _ index _ values ((members_iff_readBack dateText batch.schema
          columns 0 index values written.length_eq).mpr readBack)) value
        (List.mem_of_getElem? isValue)
      rw [named, agree field (List.mem_of_getElem? here), found] at last
      exact (Option.some.inj last).symm
    obtain ⟨rebuilt, isRebuilt, made⟩ := forall₂_getElem? written position field here
    rw [built position field column here isColumn] at made
    cases made
    obtain rfl : place = position := by
      rw [findIdx?_nodup batch.schema.fields canonical.distinct position field here] at isPlace
      exact (Option.some.inj isPlace).symm
    cases isAgain.symm.trans isRebuilt
    rw [readCanonicalValue, List.getElem?_map, isCell, Option.map_some, Option.getD_some, same]
      at reads
    have alike := Nested.alike_of_rewritable field.type rewritable
    have back := (comesBack dateText field.type alike cell (cells cell member)).back rich converts
    have backHeld := (comesBack dateText field.type alike _
      (Nested.heldCell_canonical library field.type rewritable cell (cells cell member))).back rich
      reads
    exact Except.ok.inj (backHeld.symm.trans back)
  · intro keeps
    refine ⟨batch.columns, ?_, fun index row here => ?_⟩
    · refine List.forall₂_iff_get.mpr ⟨canonical.columns.length_eq, fun position inside within => ?_⟩
      have isField := List.getElem?_eq_getElem inside
      have isColumn := List.getElem?_eq_getElem within
      rw [List.get_eq_getElem, List.get_eq_getElem, built position _ _ isField isColumn]
      exact congrArg Except.ok ((List.map_congr_left (keeps position _ _ isField isColumn)).trans
        (List.map_id _))
    · obtain ⟨values, members, same⟩ := (rowAt_iff dateText batch index row).mp (isRow index row here)
      refine ⟨values, (members_iff_readBack dateText batch.schema batch.columns batch.numRows index
        values canonical.columns.length_eq).mp members, fun field _ => ?_⟩
      exact (lookup_row row values same field.name).symm

/-! ## Calls -/

/-- What a call is answered: the bound schema, and the worker's batches with their rows. -/
structure Answered where
  outputSchema : Schema
  deliveries : Yielded Text Delivery

section

variable {Arguments Hints : Type}

def answerTable (transport : Transport Arguments Hints)
    (options : TableFunctionOptions Arguments Hints) : Except Text Answered := do
  let bound := bindCall transport options none
  let response ← transport.bind bound
  let session ← transport.init (initCall options bound response none none)
  .ok ⟨response.outputSchema, session.replies⟩

def answerTableInOut (transport : Transport Arguments Hints)
    (options : TableInOutFunctionOptions Arguments Hints) : Except Text Answered :=
  match options.input with
  | [] => .error (noInput options.functionName)
  | firstBatch :: others => do
      let bound := bindCall transport options.toTableFunctionOptions (some firstBatch.schema)
      let response ← transport.bind bound
      let options' := options.toTableFunctionOptions
      let session ← transport.init (initCall options' bound response (some .input) none)
      let finalized : Yielded Text Delivery :=
        if options.hasFinalize = some false then ⟨[], none⟩
        else
          match transport.init (initCall options' bound response (some .finalize)
              (some session.executionId)) with
          | .error failure => .fail failure
          | .ok finalize => finalize.replies
      .ok ⟨response.outputSchema,
        (session.exchangeContinued (firstBatch :: others)).andThen finalized⟩

/-- The worker emits batches of the bound schema as it narrows it, and the session delivers their
rows. -/
structure Emits (projectionPushdown : Bool) (projectionIds : Option (List Int))
    (answered : Answered) (schema : Schema) : Prop where
  narrowed : emittedSchema projectionPushdown projectionIds answered.outputSchema = .ok schema
  schemas : ∀ delivery ∈ answered.deliveries.items, delivery.batch.schema = schema
  delivered : ∀ delivery ∈ answered.deliveries.items,
    iterRows dateText delivery.batch = .ok delivery.rows

/-- Batches of the emitted schema, each with the rows of its group, to the same end. -/
def Agrees (schema : Schema) (batches : Yielded Text Batch)
    (rows : Yielded Text (List RichRow)) : Prop :=
  batches.failure = rows.failure ∧ List.Forall₂ (fun batch group =>
    batch.schema = schema ∧ iterRows dateText batch = .ok group) batches.items rows.items

/-- The emitted schema is the bound one, with a column at least, and the codec keeps the rows. -/
structure Suits (projectionPushdown : Bool) (projectionIds : Option (List Int))
    (outputSchema : Schema) (rows : List RichRow) : Prop where
  whole : emittedSchema projectionPushdown projectionIds outputSchema = .ok outputSchema
  columns : outputSchema.fields ≠ []
  kept : Kept nested dateText outputSchema rows

/-- The function has no projection pushdown, or the call names no column or all of them in order. -/
def NarrowsNothing (projectionPushdown : Bool) (projectionIds : Option (List Int))
    (outputSchema : Schema) : Prop :=
  projectionPushdown = true → ∀ ids ∈ projectionIds,
    Projection.LeavesWhole ids outputSchema.fields.length

private theorem emittedSchema_whole_iff (projectionPushdown : Bool)
    (projectionIds : Option (List Int)) (outputSchema : Schema)
    (distinct : (outputSchema.fields.map FieldOf.name).Nodup) :
    emittedSchema projectionPushdown projectionIds outputSchema = .ok outputSchema ↔
      NarrowsNothing projectionPushdown projectionIds outputSchema := by
  unfold emittedSchema NarrowsNothing
  cases projectionPushdown with
  | false => simp
  | true =>
      cases projectionIds with
      | none => simp [Projection.projectSchema]
      | some ids => simpa using Projection.projectSchema_whole_iff ids outputSchema distinct

/-- For canonical cells under distinct names, what a batch has to meet is about the ids, the schema
and the cells. -/
private theorem suits_iff (projectionPushdown : Bool) (projectionIds : Option (List Int))
    (answered : Answered) (schema : Schema)
    (emits : Emits dateText projectionPushdown projectionIds answered schema)
    (distinct : (answered.outputSchema.fields.map FieldOf.name).Nodup) (delivery : Delivery)
    (member : delivery ∈ answered.deliveries.items)
    (canonical : Nested.HoldsCanonical delivery.batch) :
    Suits nested dateText projectionPushdown projectionIds answered.outputSchema delivery.rows ↔
      NarrowsNothing projectionPushdown projectionIds answered.outputSchema ∧
        answered.outputSchema.fields ≠ [] ∧ KeepsCells library delivery.batch := by
  have whole := emittedSchema_whole_iff projectionPushdown projectionIds answered.outputSchema
    distinct
  have kept := kept_iff_keepsCells nested dateText delivery.batch canonical delivery.rows
    (emits.delivered delivery member)
  rw [emits.schemas delivery member] at kept
  have same : emittedSchema projectionPushdown projectionIds answered.outputSchema =
      .ok answered.outputSchema → schema = answered.outputSchema :=
    fun isWhole => Except.ok.inj (emits.narrowed.symm.trans isWhole)
  constructor
  · rintro ⟨isWhole, columns, keeps⟩
    rw [same isWhole] at kept
    exact ⟨whole.mp isWhole, columns, kept.mp keeps⟩
  · rintro ⟨narrowsNothing, columns, keeps⟩
    have isWhole := whole.mpr narrowsNothing
    rw [same isWhole] at kept
    exact ⟨isWhole, columns, kept.mpr keeps⟩

private def groups (answered : Answered) : Yielded Text (List RichRow) :=
  (answered.deliveries.map Delivery.rows).filter nonEmpty

private theorem groups_agree_iff (projectionPushdown : Bool) (projectionIds : Option (List Int))
    (answered : Answered) (schema : Schema)
    (emits : Emits dateText projectionPushdown projectionIds answered schema) :
    Agrees dateText schema
        ((groups answered).convert (batchFromRows nested dateText answered.outputSchema))
        (groups answered) ↔
      ∀ delivery ∈ answered.deliveries.items, delivery.rows ≠ [] →
        Suits nested dateText projectionPushdown projectionIds answered.outputSchema
          delivery.rows := by
  rw [Agrees, Yielded.convert_agrees_iff]
  have each (delivery : Delivery) (member : delivery ∈ answered.deliveries.items)
      (nonempty : delivery.rows ≠ []) :
      (∃ batch, batchFromRows nested dateText answered.outputSchema delivery.rows = .ok batch ∧
          batch.schema = schema ∧ iterRows dateText batch = .ok delivery.rows) ↔
        Suits nested dateText projectionPushdown projectionIds answered.outputSchema
          delivery.rows := by
    have single := group_iff nested dateText answered.outputSchema delivery
      (emits.delivered delivery member) nonempty
    rw [emits.schemas delivery member] at single
    rw [single]
    constructor
    · rintro ⟨whole, columns, kept⟩
      exact ⟨by rw [emits.narrowed, whole], columns, kept⟩
    · rintro ⟨whole, columns, kept⟩
      exact ⟨Except.ok.inj (emits.narrowed.symm.trans whole), columns, kept⟩
  constructor
  · intro converted delivery member nonempty
    refine (each delivery member nonempty).mp (converted delivery.rows ?_)
    exact List.mem_filter.mpr ⟨List.mem_map_of_mem member, by simpa [nonEmpty] using nonempty⟩
  · intro suits group member
    obtain ⟨isGroup, nonempty⟩ := List.mem_filter.mp member
    obtain ⟨delivery, isDelivery, rfl⟩ := List.mem_map.mp isGroup
    have nonempty : delivery.rows ≠ [] := by simpa [nonEmpty] using nonempty
    exact (each delivery isDelivery nonempty).mpr (suits delivery isDelivery nonempty)

private theorem tableFunctionRows_eq (transport : Transport Arguments Hints)
    (options : TableFunctionOptions Arguments Hints) :
    tableFunctionRows transport options none =
      match answerTable transport options with
      | .error failure => .fail failure
      | .ok answered => groups answered := by
  unfold tableFunctionRows answerTable
  dsimp only
  cases transport.bind (bindCall transport options none) with
  | error failure => rfl
  | ok response =>
      dsimp only
      rw [except_ok_bind]
      cases transport.init (initCall options (bindCall transport options none) response none none)
      · rfl
      · rfl

private theorem tableFunction_eq (transport : Transport Arguments Hints)
    (options : TableFunctionOptions Arguments Hints) :
    tableFunction nested dateText transport options =
      match answerTable transport options with
      | .error failure => .fail failure
      | .ok answered =>
          (groups answered).convert (batchFromRows nested dateText answered.outputSchema) := by
  unfold tableFunction answerTable
  dsimp only
  cases transport.bind (bindCall transport options none) with
  | error failure => rfl
  | ok response =>
      dsimp only
      rw [except_ok_bind]
      cases transport.init (initCall options (bindCall transport options none) response none none)
      · rfl
      · rfl

private theorem tableInOutFunctionRows_eq (transport : Transport Arguments Hints)
    (options : TableInOutFunctionOptions Arguments Hints) :
    tableInOutFunctionRows transport options =
      match answerTableInOut transport options with
      | .error failure => .fail failure
      | .ok answered => groups answered := by
  unfold tableInOutFunctionRows answerTableInOut
  cases options.input with
  | nil => rfl
  | cons firstBatch others =>
      dsimp only
      cases transport.bind (bindCall transport options.toTableFunctionOptions
        (some firstBatch.schema)) with
      | error failure => rfl
      | ok response =>
          dsimp only
          rw [except_ok_bind]
          cases transport.init (initCall options.toTableFunctionOptions (bindCall transport
            options.toTableFunctionOptions (some firstBatch.schema)) response (some .input) none) with
          | error failure => rfl
          | ok session =>
              rw [except_ok_bind]
              dsimp only
              rw [groups, Yielded.map_andThen, Yielded.filter_andThen]
              congr 1
              split
              · rfl
              · cases transport.init (initCall options.toTableFunctionOptions (bindCall transport
                  options.toTableFunctionOptions (some firstBatch.schema)) response
                  (some .finalize) (some session.executionId))
                · rfl
                · rfl

private theorem tableInOutFunction_eq (transport : Transport Arguments Hints)
    (options : TableInOutFunctionOptions Arguments Hints) :
    tableInOutFunction nested dateText transport options =
      match answerTableInOut transport options with
      | .error failure => .fail failure
      | .ok answered =>
          (groups answered).convert (batchFromRows nested dateText answered.outputSchema) := by
  unfold tableInOutFunction answerTableInOut
  cases options.input with
  | nil => rfl
  | cons firstBatch others =>
      dsimp only
      cases transport.bind (bindCall transport options.toTableFunctionOptions
        (some firstBatch.schema)) with
      | error failure => rfl
      | ok response =>
          dsimp only
          rw [except_ok_bind]
          cases transport.init (initCall options.toTableFunctionOptions (bindCall transport
            options.toTableFunctionOptions (some firstBatch.schema)) response (some .input) none) with
          | error failure => rfl
          | ok session =>
              rw [except_ok_bind]
              dsimp only
              rw [groups, Yielded.map_andThen, Yielded.filter_andThen, Yielded.convert_andThen]
              congr 1
              split
              · rfl
              · cases transport.init (initCall options.toTableFunctionOptions (bindCall transport
                  options.toTableFunctionOptions (some firstBatch.schema)) response
                  (some .finalize) (some session.executionId))
                · rfl
                · rfl

end

end

/-! ## Two flags -/

private def flag (name : String) : Field :=
  ⟨text name, .bool, true, .empty⟩

/-- A worker that emits one row of the given fields, each true. -/
private def flagWorker (bound emitted : List Field) : Transport Unit Unit where
  defaultAttachOpaqueData := none
  bind _ := .ok ⟨⟨bound, .empty⟩, none⟩
  init _ := .ok ⟨⟨[⟨⟨⟨emitted, .empty⟩, emitted.map fun _ => [.bool true], 1, none⟩,
    [emitted.map fun field => (field.name, .bool true)]⟩], none⟩, fun _ => ⟨[], none⟩, []⟩

private def flagCall (projectionIds : Option (List Int)) : TableFunctionOptions Unit Unit :=
  ⟨text "flags", none, none, none, none, projectionIds, ()⟩

private def flagAnswer (bound emitted : List Field) : Answered :=
  ⟨⟨bound, .empty⟩, ⟨[⟨⟨⟨emitted, .empty⟩, emitted.map fun _ => [.bool true], 1, none⟩,
    [emitted.map fun field => (field.name, .bool true)]⟩], none⟩⟩

end VgiWorker.Functions.ClientBatches
