import VgiWorker.Arrow.Codec
import VgiWorker.Codec.Collections
import VgiWorker.Js.OrderedMapRuns

/-!
# What a collection reads back as

Every record comes back member by member, in its place.
-/

set_option autoImplicit false

namespace VgiWorker.Codec

open Js Arrow
open Protocol (Row rowMember)

/-! ## Settling a record -/

theorem rowMember_setEntry (record : Row) (name other : Text) (value : Rich) :
    rowMember (setEntry record name value) other =
      if name = other then value else rowMember record other := by
  unfold rowMember
  rw [lookupEntry_setEntry]
  split <;> rfl

theorem find?_of_mem {fields : List Field} (nodup : (fields.map FieldOf.name).Nodup)
    {field : Field} (member : field ∈ fields) :
    fields.find? (fun other => other.name = field.name) = some field := by
  induction fields with
  | nil => cases member
  | cons first rest inductionHypothesis =>
      obtain ⟨fresh, nodupRest⟩ := List.nodup_cons.mp nodup
      rw [List.find?_cons]
      rcases List.mem_cons.mp member with rfl | later
      · simp
      · have differ : first.name ≠ field.name := fun same =>
          fresh (List.mem_map.mpr ⟨field, later, same.symm⟩)
        simp only [differ, decide_false]
        exact inductionHypothesis nodupRest later

theorem lookupEntry_setMembers (members replaced : List (Text × Rich)) (name : Text) :
    lookupEntry (setMembers members replaced) name =
      (OrderedMap.lastOf replaced name).or (lookupEntry members name) := by
  induction replaced generalizing members with
  | nil => rfl
  | cons entry rest inductionHypothesis =>
      rw [setMembers, List.foldl_cons, ← setMembers, inductionHypothesis, lookupEntry_setEntry,
        OrderedMap.lastOf_cons]
      cases OrderedMap.lastOf rest name with
      | some value => rfl
      | none =>
          by_cases same : entry.1 = name
          · simp [same]
          · simp [same]

/-- The replacement of a member, where the names are distinct. -/
theorem lastOf_conformMembers (fields : List Field) (nodup : (fields.map FieldOf.name).Nodup)
    (members : List (Text × Rich)) (name : Text) :
    OrderedMap.lastOf (conformMembers fields members) name =
      (fields.find? fun field => field.name = name).bind fun field =>
        conformValue field.type (lookupEntry members name) field.nullable name := by
  induction fields with
  | nil => rfl
  | cons field rest inductionHypothesis =>
      obtain ⟨fresh, nodupRest⟩ := List.nodup_cons.mp nodup
      obtain ⟨fieldName, type, nullable, metadata⟩ := field
      rw [conformMembers, List.find?_cons]
      by_cases same : fieldName = name
      · subst same
        have absent : rest.find? (fun field => field.name = fieldName) = none := by
          refine List.find?_eq_none.mpr fun other member clash => fresh ?_
          exact List.mem_map.mpr ⟨other, member, of_decide_eq_true clash⟩
        have later := inductionHypothesis nodupRest
        rw [absent, Option.bind_none] at later
        simp only [decide_true, Option.bind_some, conformValue]
        split
        · rename_i next replaced
          rw [OrderedMap.lastOf_cons, later, replaced]
          simp
        · rename_i kept
          rw [later, kept]
      · simp only [same, decide_false]
        split
        · rw [OrderedMap.lastOf_cons, inductionHypothesis nodupRest]
          simp [same]
        · exact inductionHypothesis nodupRest

/-- A missing member that is replaced reads as a null one does. -/
theorem conformValue_missing (type : DataType) (nullable : Bool) (name : Text) :
    (conformValue type none nullable name).getD .null =
      (conformValue type (some .null) nullable name).getD .null := by
  cases nullable <;> cases container : isContainer type <;> simp [conformValue, conformSlot, container]

theorem rowMember_conformRecord (schema : Schema) (nodup : (schema.fields.map FieldOf.name).Nodup)
    (record : Row) (field : Field) (member : field ∈ schema.fields) :
    rowMember (conformRecord schema record) field.name =
      (conformValue field.type (some (rowMember record field.name)) field.nullable field.name).getD
        (rowMember record field.name) := by
  rw [rowMember, conformRecord, lookupEntry_setMembers, lastOf_conformMembers _ nodup,
    find?_of_mem nodup member, Option.bind_some, rowMember]
  cases lookupEntry record field.name with
  | none =>
      rw [Option.or_none, conformValue_missing]
      rfl
  | some value =>
      rw [Option.getD_some]
      cases conformValue field.type (some value) field.nullable field.name with
      | none => rfl
      | some next => rfl

private theorem rowMember_sortFold (dateText : Number → Text) (record : Row) (fields : List Field)
    (nodup : (fields.map FieldOf.name).Nodup) (sorted : Row) (name : Text) :
    rowMember (fields.foldl
        (fun sorted field =>
          if typeHasMap field.type && !isRichNull (rowMember record field.name) then
            setEntry sorted field.name
              (sortMapsForType dateText field.type (rowMember record field.name))
          else sorted) sorted) name =
      match fields.find? (fun field => field.name = name) with
      | some field =>
          if typeHasMap field.type && !isRichNull (rowMember record name) then
            sortMapsForType dateText field.type (rowMember record name)
          else rowMember sorted name
      | none => rowMember sorted name := by
  induction fields generalizing sorted with
  | nil => rfl
  | cons field rest inductionHypothesis =>
      obtain ⟨fresh, nodupRest⟩ := List.nodup_cons.mp nodup
      rw [List.foldl_cons, inductionHypothesis nodupRest, List.find?_cons]
      by_cases same : field.name = name
      · subst same
        have absent : rest.find? (fun other => other.name = field.name) = none := by
          refine List.find?_eq_none.mpr fun other member clash => fresh ?_
          exact List.mem_map.mpr ⟨other, member, of_decide_eq_true clash⟩
        simp only [absent, decide_true]
        split
        · rw [rowMember_setEntry, if_pos rfl]
        · rfl
      · simp only [same, decide_false]
        have kept : rowMember (if typeHasMap field.type && !isRichNull (rowMember record field.name)
            then setEntry sorted field.name
              (sortMapsForType dateText field.type (rowMember record field.name))
            else sorted) name = rowMember sorted name := by
          split
          · rw [rowMember_setEntry, if_neg same]
          · rfl
        rw [kept]

/-- A value without a map, or a missing one, is left as it is. -/
theorem sortMapsForType_skip (dateText : Number → Text) (type : DataType) (value : Rich)
    (skipped : (typeHasMap type && !isRichNull value) = false) :
    sortMapsForType dateText type value = value := by
  cases type with
  | map keysSorted children =>
      rw [sortMapsForType, if_pos]
      simpa [typeHasMap] using skipped
  | list children =>
      rw [sortMapsForType, if_pos]
      cases mapped : childHasMap children with
      | false => simp
      | true => simpa [typeHasMap, mapped] using skipped
  | struct children =>
      rw [sortMapsForType, if_pos]
      cases mapped : childHasMap children with
      | false => simp
      | true => simpa [typeHasMap, mapped] using skipped
  | _ => rfl

/-- The member of a settled record is the settled member. -/
theorem rowMember_settled (dateText : Number → Text) (schema : Schema)
    (nodup : (schema.fields.map FieldOf.name).Nodup) (record : Row) (field : Field)
    (member : field ∈ schema.fields) :
    rowMember (sortMapsForSchema dateText schema (conformRecord schema record)) field.name =
      settledMember dateText field (rowMember record field.name) := by
  have conformed := rowMember_conformRecord schema nodup record field member
  rw [sortMapsForSchema, rowMember_sortFold dateText _ _ nodup, find?_of_mem nodup member,
    settledMember, ← conformed]
  dsimp only
  split
  · rfl
  · rename_i skipped
    exact (sortMapsForType_skip dateText field.type _ (by simpa using skipped)).symm

/-! ## Reading a batch -/

/-- The record that a row of kept cells reads as. -/
def readRow (schema : Schema) (kept : List Value) : Row :=
  (schema.fields.zip kept).map fun entry => (entry.1.name, normalizeValue entry.1.type entry.2)

/-- A row that a reader accepts. -/
structure Readable (schema : Schema) (kept : List Value) : Prop where
  full : kept.length = schema.fields.length
  present : ∀ entry ∈ schema.fields.zip kept,
    ¬ (isCanonicalNull entry.2 = true ∧ entry.1.nullable = false)

private theorem findIdx?_same {written read : List Field}
    (same : List.Forall₂ SameField written read) (name : Text) :
    read.findIdx? (fun field => field.name = name) =
      written.findIdx? (fun field => field.name = name) := by
  induction same with
  | nil => rfl
  | cons first _ inductionHypothesis =>
      rw [List.findIdx?_cons, List.findIdx?_cons, first.1, inductionHypothesis]

private theorem getChild_tableBatch {schema read : Schema} {rows : List (List Value)}
    (nodup : (schema.fields.map FieldOf.name).Nodup)
    (same : List.Forall₂ SameField schema.fields read.fields) {index : Nat} {field : Field}
    (here : schema.fields[index]? = some field) :
    (tableBatch read rows).getChild field.name =
      some (rows.map fun row => row[index]?.getD .null) := by
  have inside : index < schema.fields.length := (List.getElem?_eq_some_iff.mp here).1
  have found : (tableBatch read rows).schema.fields.findIdx?
      (fun other => other.name = field.name) = some index :=
    (findIdx?_same same field.name).trans (findIdx?_nodup schema.fields nodup index field here)
  rw [Batch.getChild, found, Option.bind_some, Batch.getChildAt, tableBatch]
  simp [List.getElem?_map, List.getElem?_range (same.length_eq ▸ inside)]

private theorem decodeMember_eq {schema read : Schema} {rows : List (List Value)}
    (nodup : (schema.fields.map FieldOf.name).Nodup)
    (same : List.Forall₂ SameField schema.fields read.fields) {row : Nat} {kept : List Value}
    (readable : Readable schema kept) (stands : rows[row]? = some kept) {index : Nat}
    {field : Field} {cell : Value} (here : schema.fields[index]? = some field)
    (held : kept[index]? = some cell) :
    decodeMember (tableBatch read rows) row field =
      .ok (field.name, normalizeValue field.type cell) := by
  have value : (((tableBatch read rows).getChild field.name).bind (·[row]?)).getD .null = cell := by
    rw [getChild_tableBatch nodup same here]
    simp [stands, held]
  have entry : (field, cell) ∈ schema.fields.zip kept :=
    List.mem_of_getElem? (List.getElem?_zip_eq_some.mpr ⟨here, held⟩)
  rw [decodeMember, value, if_neg (readable.present _ entry)]

private theorem decodeRow_eq {schema read : Schema} {rows : List (List Value)}
    (nodup : (schema.fields.map FieldOf.name).Nodup)
    (same : List.Forall₂ SameField schema.fields read.fields) {row : Nat} {kept : List Value}
    (readable : Readable schema kept) (stands : rows[row]? = some kept) :
    schema.fields.mapM (decodeMember (tableBatch read rows) row) = .ok (readRow schema kept) := by
  refine (except_mapM_iff _ _ _).mpr (List.forall₂_iff_get.mpr ⟨?_, fun index inside insideRow => ?_⟩)
  · simp [readRow, readable.full]
  · have held : index < kept.length := readable.full ▸ inside
    refine (decodeMember_eq nodup same readable stands (List.getElem?_eq_getElem inside)
      (List.getElem?_eq_getElem held)).trans ?_
    simp [readRow]

theorem validateSchema_same {written read : Schema}
    (same : List.Forall₂ SameField written.fields read.fields) :
    validateSchema written read = .ok () := by
  have each : (written.fields.zip read.fields).all (fun entry => sameField entry.1 entry.2) := by
    refine List.all_eq_true.mpr fun entry member => ?_
    have related := List.forall₂_zip same member
    simp [sameField, related.1, related.2.1, related.2.2]
  rw [validateSchema, if_pos ⟨same.length_eq.symm, each⟩]

private theorem decodeBatch_eq {schema read : Schema} {rows : List (List Value)}
    (nodup : (schema.fields.map FieldOf.name).Nodup)
    (same : List.Forall₂ SameField schema.fields read.fields)
    (readable : ∀ kept ∈ rows, Readable schema kept) :
    decodeBatch schema (tableBatch read rows) = .ok (rows.map (readRow schema)) := by
  rw [decodeBatch]
  change (validateSchema schema read >>= _) = _
  rw [validateSchema_same same, except_ok_bind]
  refine (except_mapM_iff _ _ _).mpr (List.forall₂_iff_get.mpr ⟨?_, fun row inside insideRow => ?_⟩)
  · simp [tableBatch]
  · have here : row < rows.length := by simpa [tableBatch] using inside
    have stands : rows[row]? = some rows[row] := List.getElem?_eq_getElem here
    simp only [List.get_eq_getElem, List.getElem_range, List.getElem_map]
    exact decodeRow_eq nodup same (readable _ (List.getElem_mem here)) stands

private theorem decodeBatches_eq {schema read : Schema} {chunks : List (List (List Value))}
    (nodup : (schema.fields.map FieldOf.name).Nodup)
    (same : List.Forall₂ SameField schema.fields read.fields)
    (readable : ∀ kept ∈ chunks.flatten, Readable schema kept) :
    (chunks.map (tableBatch read)).mapM (decodeBatch schema) =
      .ok (chunks.map fun rows => rows.map (readRow schema)) := by
  rw [List.mapM_map]
  refine except_mapM_eq _ _ _ fun rows member => ?_
  exact decodeBatch_eq nodup same fun kept inside =>
    readable kept (List.mem_flatten.mpr ⟨rows, member, inside⟩)

/-! ## A collection -/

/-- What a member that can be carried is written, kept and read back as. -/
private theorem carryMember_eq_some {dateText : Number → Text} {field : Field} {value back : Rich}
    (carries : carryMember dateText field value = some back) :
    ∃ canonical cell : Value,
      richToCanonical dateText field.type (settledMember dateText field value) = .ok canonical ∧
        keptCell field.type canonical = some cell ∧
          ¬ (isCanonicalNull cell = true ∧ field.nullable = false) ∧
            normalizeValue field.type cell = back := by
  unfold carryMember at carries
  split at carries
  · cases carries
  · rename_i canonical written
    split at carries
    · cases carries
    · rename_i cell kept
      split at carries
      · cases carries
      · exact ⟨canonical, cell, written, kept, ‹_›, Option.some.inj carries⟩

private theorem carried_fields {dateText : Number → Text} {record settled : Row}
    {fields : List Field} {back : Row}
    (each : List.Forall₂ (fun field entry => carryEntry dateText record field = some entry)
      fields back)
    (members : ∀ field ∈ fields,
      rowMember settled field.name = settledMember dateText field (rowMember record field.name)) :
    ∃ cells kept : List Value, fields.mapM (rowCell dateText settled) = .ok cells ∧
      cells.length = fields.length ∧
        (fields.zip cells).mapM (fun entry => keptCell entry.1.type entry.2) = some kept ∧
          kept.length = fields.length ∧
            (∀ entry ∈ fields.zip kept,
              ¬ (isCanonicalNull entry.2 = true ∧ entry.1.nullable = false)) ∧
              (fields.zip kept).map (fun entry =>
                (entry.1.name, normalizeValue entry.1.type entry.2)) = back := by
  induction each with
  | nil => exact ⟨[], [], rfl, rfl, rfl, rfl, nofun, rfl⟩
  | @cons field entry fields back first _ inductionHypothesis =>
      obtain ⟨cells, kept, written, cellCount, keeps, keptCount, present, reads⟩ :=
        inductionHypothesis fun other member => members other (List.mem_cons_of_mem _ member)
      obtain ⟨value, carries, rfl⟩ := Option.map_eq_some_iff.mp first
      obtain ⟨canonical, cell, writes, keepsFirst, presentFirst, readsFirst⟩ :=
        carryMember_eq_some carries
      have here : rowCell dateText settled field = .ok canonical := by
        rw [rowCell, members field List.mem_cons_self, writes]
        rfl
      refine ⟨canonical :: cells, cell :: kept, ?_, ?_, ?_, ?_, ?_, ?_⟩
      · rw [List.mapM_cons, here, except_ok_bind, written]
        rfl
      · rw [List.length_cons, List.length_cons, cellCount]
      · rw [List.zip_cons_cons, List.mapM_cons, keepsFirst, keeps]
        rfl
      · rw [List.length_cons, List.length_cons, keptCount]
      · rw [List.zip_cons_cons]
        exact List.forall_mem_cons.mpr ⟨presentFirst, present⟩
      · rw [List.zip_cons_cons, List.map_cons, readsFirst, reads]

/-- The cells of a record that can be carried, as written and as kept. -/
theorem carried_cells {dateText : Number → Text} {schema : Schema}
    (nodup : (schema.fields.map FieldOf.name).Nodup) {record back : Row}
    (carries : carried dateText schema record = some back) :
    ∃ cells kept : List Value,
      rowCells dateText schema (sortMapsForSchema dateText schema (conformRecord schema record)) =
        .ok cells ∧ keptRow schema cells = some kept ∧ Readable schema kept ∧
          readRow schema kept = back := by
  obtain ⟨cells, kept, written, cellCount, keeps, keptCount, present, reads⟩ :=
    carried_fields ((option_mapM_iff _ _ _).mp carries)
      (rowMember_settled dateText schema nodup record)
  exact ⟨cells, kept, written, by rw [keptRow, if_pos cellCount, keeps], ⟨keptCount, present⟩, reads⟩

private theorem carried_rows {dateText : Number → Text} {schema : Schema}
    (nodup : (schema.fields.map FieldOf.name).Nodup) {records back : List Row}
    (each : List.Forall₂ (fun record row => carried dateText schema record = some row)
      records back) :
    ∃ rows kept : List (List Value),
      (records.map fun record => sortMapsForSchema dateText schema
        (conformRecord schema record)).mapM (rowCells dateText schema) = .ok rows ∧
        rows.mapM (keptRow schema) = some kept ∧ (∀ row ∈ kept, Readable schema row) ∧
          kept.map (readRow schema) = back ∧ rows.length = records.length := by
  induction each with
  | nil => exact ⟨[], [], rfl, rfl, nofun, rfl, rfl⟩
  | cons first _ inductionHypothesis =>
      obtain ⟨rows, kept, written, keeps, readable, reads, count⟩ := inductionHypothesis
      obtain ⟨cells, row, writes, keepsFirst, readableFirst, readsFirst⟩ :=
        carried_cells nodup first
      refine ⟨cells :: rows, row :: kept, ?_, ?_, ?_, ?_, ?_⟩
      · rw [List.map_cons, List.mapM_cons, writes, except_ok_bind, written]
        rfl
      · rw [List.mapM_cons, keepsFirst, keeps]
        rfl
      · exact List.forall_mem_cons.mpr ⟨readableFirst, readable⟩
      · rw [List.map_cons, readsFirst, reads]
      · rw [List.length_cons, List.length_cons, count]

/-- Records that can be carried are written, and read back in their order. -/
theorem decode_encode_collection {Stream : Type} {dateText : Number → Text}
    {library : TableLibrary Stream} (lawful : library.Lawful) {schema : Schema}
    (nodup : (schema.fields.map FieldOf.name).Nodup) {records back : List Row}
    (carries : records.mapM (carried dateText schema) = some back) :
    ∃ bytes : Option Stream, encodeASDCollection dateText library schema records = .ok bytes ∧
      decodeASDCollection library schema bytes = .ok back := by
  cases records with
  | nil =>
      cases carries
      exact ⟨none, rfl, rfl⟩
  | cons record rest =>
      obtain ⟨rows, kept, written, keeps, readable, reads, count⟩ :=
        carried_rows nodup ((option_mapM_iff _ _ _).mp carries)
      have nonempty : rows ≠ [] := by
        intro empty
        rw [empty] at count
        cases count
      obtain ⟨stream, read, chunks, stored, received, flat, same⟩ :=
        lawful schema rows kept 1024 nonempty (by decide) keeps
      refine ⟨some stream, ?_, ?_⟩
      · rw [encodeASDCollection, serializeCollectionRows, written, except_ok_bind, stored]
        · rfl
        · exact nofun
      · have decoded := decodeBatches_eq nodup same (flat ▸ readable)
        have some : (chunks.map (tableBatch read)).isEmpty = false := by
          cases chunks with
          | nil =>
              have none : kept.length = rows.length :=
                ((option_mapM_iff _ _ _).mp keeps).length_eq.symm
              rw [← flat] at none
              exact absurd (List.length_eq_zero_iff.mp none.symm) nonempty
          | cons _ _ => rfl
        simp only [decodeASDCollection, received, Except.mapError, except_ok_bind, some, decoded]
        have rows : (chunks.map fun rows => rows.map (readRow schema)).flatten = back := by
          rw [← List.map_flatten, flat, reads]
        rw [← rows]
        rfl

end VgiWorker.Codec
