import Mathlib.Data.List.Dedup
import VgiWorker.Arrow.StatisticsProperties

/-!
# Faithful statistics

Both backends build their batch and lead every row back to its own bounds exactly
when the type keys tell the types apart, int8 codes suffice for them and the
bounds survive a column of their type. The two schemas are never the same.
-/

set_option autoImplicit false

namespace VgiWorker.Arrow

open VgiWorker.Js

/-! ## The columns beside the bounds -/

def countValue : Option Count → Value
  | none => .null
  | some (.bigint value) => .bigint value
  | some (.number value) => (value.toInt?.map Value.bigint).getD .null

/-- The count is an integer of the 64-bit type. -/
def CountFits (signed : Bool) : Option Count → Prop
  | none => True
  | some (.bigint value) => (intRange 64 signed).1 ≤ value ∧ value ≤ (intRange 64 signed).2
  | some (.number value) =>
      ∃ integer, value.toInt? = some integer ∧
        (intRange 64 signed).1 ≤ integer ∧ integer ≤ (intRange 64 signed).2

def CountsFit (stats : List ColumnStatistics) : Prop :=
  ∀ column ∈ stats, CountFits true column.distinctCount ∧ CountFits false column.maxStringLength

/-- The batch around the two bounds, as both backends build it. -/
def assembled (flagsNullable : Bool) (stats : List ColumnStatistics) (min max : UnionColumn) :
    StatisticsBatch where
  schema := statisticsSchema false flagsNullable min.type
  columnName := stats.map fun column => .string (dropBom (toWellFormed column.columnName))
  min := min
  max := max
  hasNull := stats.map fun column => .bool column.hasNull
  hasNotNull := stats.map fun column => .bool column.hasNotNull
  distinctCount := stats.map fun column => countValue column.distinctCount
  containsUnicode := stats.map fun column => (column.containsUnicode.map Value.bool).getD .null
  maxStringLength := stats.map fun column => countValue column.maxStringLength

section

variable (dateText : Number → Text) (store : CellStore)

private theorem typedColumn_map (stats : List ColumnStatistics) (type : DataType)
    (value : ColumnStatistics → Rich) (kept : ColumnStatistics → Value)
    (keeps : ∀ column, Keeps dateText store type (value column) (kept column)) :
    buildTypedColumn dateText store (stats.map value) type = .ok (stats.map kept) := by
  rw [buildTypedColumn_iff, List.forall₂_map_left_iff, List.forall₂_map_right_iff,
    List.forall₂_same]
  exact fun column _ => keeps column

private theorem keeps_int64 (signed : Bool) (value : Int) (kept : Value) :
    Keeps dateText store (.int 64 signed) (.bigint value) kept ↔
      ((intRange 64 signed).1 ≤ value ∧ value ≤ (intRange 64 signed).2) ∧ kept = .bigint value := by
  have codec : richToCanonical dateText (.int 64 signed) (.bigint value) =
      checkInteger "int" (intRange 64 signed).1 (intRange 64 signed).2 (.bigint value) := rfl
  constructor
  · rintro ⟨canonical, converted, stored⟩
    rw [codec, checkInteger] at converted
    split at converted
    · rename_i fits
      cases converted
      rw [store.int64 signed value fits.1 fits.2] at stored
      cases stored
      exact ⟨fits, rfl⟩
    · cases converted
  · rintro ⟨fits, rfl⟩
    exact ⟨.bigint value, by rw [codec, checkInteger, if_pos fits],
      store.int64 signed value fits.1 fits.2⟩

private theorem keeps_null64 (signed : Bool) (kept : Value) :
    Keeps dateText store (.int 64 signed) .null kept ↔ kept = .null := by
  have codec : richToCanonical dateText (.int 64 signed) .null = .ok .null := rfl
  constructor
  · rintro ⟨canonical, converted, stored⟩
    rw [codec] at converted
    cases converted
    rw [store.null] at stored
    cases stored
    rfl
  · rintro rfl
    exact ⟨.null, codec, store.null _⟩

/-- One count, converted and kept. -/
private theorem count_kept_iff (signed : Bool) (count : Option Count) (kept : Value) :
    (∃ rich, toBigInt count = .ok rich ∧ Keeps dateText store (.int 64 signed) rich kept) ↔
      CountFits signed count ∧ kept = countValue count := by
  cases count with
  | none => simp [toBigInt, keeps_null64, CountFits, countValue]
  | some count =>
      cases count with
      | bigint value => simp [toBigInt, keeps_int64, CountFits, countValue]
      | number value =>
          cases integer : value.toInt? with
          | none => simp [toBigInt, integer, CountFits]
          | some whole => simp [toBigInt, integer, keeps_int64, CountFits, countValue]

private theorem countColumn (signed : Bool) (count : ColumnStatistics → Option Count)
    (stats : List ColumnStatistics) (cells : Column) :
    (∃ counts, stats.mapM (fun column => toBigInt (count column)) = .ok counts ∧
      buildTypedColumn dateText store counts (.int 64 signed) = .ok cells) ↔
    (∀ column ∈ stats, CountFits signed (count column)) ∧
      cells = stats.map fun column => countValue (count column) := by
  simp only [buildTypedColumn_iff, except_mapM_iff]
  induction stats generalizing cells with
  | nil =>
      constructor
      · rintro ⟨counts, converted, kept⟩
        cases converted
        cases kept
        exact ⟨by simp, rfl⟩
      · rintro ⟨-, rfl⟩
        exact ⟨[], .nil, .nil⟩
  | cons column rest ih =>
      constructor
      · rintro ⟨counts, converted, kept⟩
        cases converted with
        | @cons _ rich _ richs here later =>
            cases kept with
            | cons keeps others =>
                obtain ⟨fits, rfl⟩ := (count_kept_iff dateText store signed _ _).mp ⟨rich, here, keeps⟩
                obtain ⟨restFits, rfl⟩ := (ih _).mp ⟨richs, later, others⟩
                refine ⟨?_, rfl⟩
                intro other member
                rcases List.mem_cons.mp member with rfl | inside
                · exact fits
                · exact restFits other inside
      · rintro ⟨fits, rfl⟩
        obtain ⟨rich, here, keeps⟩ :=
          (count_kept_iff dateText store signed _ _).mpr ⟨fits column List.mem_cons_self, rfl⟩
        obtain ⟨richs, later, others⟩ :=
          (ih _).mpr ⟨fun other inside => fits other (List.mem_cons_of_mem _ inside), rfl⟩
        exact ⟨rich :: richs, .cons here later, .cons keeps others⟩

/-- What is beside the bounds fails only for a count that is no 64-bit integer. -/
theorem assemble_iff (flagsNullable : Bool) (stats : List ColumnStatistics) (min max : UnionColumn)
    (batch : StatisticsBatch) :
    assemble dateText store flagsNullable stats min max = .ok batch ↔
      CountsFit stats ∧ batch = assembled flagsNullable stats min max := by
  have names := typedColumn_map dateText store stats .utf8 (fun column => .string column.columnName)
    (fun column => .string (dropBom (toWellFormed column.columnName)))
    fun column => ⟨.string column.columnName, rfl, store.utf8 _⟩
  have nulls := typedColumn_map dateText store stats .bool (fun column => .bool column.hasNull)
    (fun column => .bool column.hasNull) fun column => ⟨_, rfl, store.bool _⟩
  have notNulls := typedColumn_map dateText store stats .bool (fun column => .bool column.hasNotNull)
    (fun column => .bool column.hasNotNull) fun column => ⟨_, rfl, store.bool _⟩
  have unicode := typedColumn_map dateText store stats .bool
    (fun column => (column.containsUnicode.map Rich.bool).getD .null)
    (fun column => (column.containsUnicode.map Value.bool).getD .null)
    fun column => by
      cases column.containsUnicode with
      | none => exact ⟨.null, rfl, store.null _⟩
      | some flag => exact ⟨.bool flag, rfl, store.bool _⟩
  constructor
  · intro built
    obtain ⟨distinctCounts, distinct, built⟩ := except_bind_ok _ _ _ built
    obtain ⟨maxStringLengths, lengths, built⟩ := except_bind_ok _ _ _ built
    simp only [names, nulls, notNulls, unicode, except_ok_bind] at built
    obtain ⟨distinctCells, distinctBuilt, built⟩ := except_bind_ok _ _ _ built
    obtain ⟨lengthCells, lengthsBuilt, built⟩ := except_bind_ok _ _ _ built
    obtain ⟨distinctFits, rfl⟩ :=
      (countColumn dateText store true _ stats _).mp ⟨_, distinct, distinctBuilt⟩
    obtain ⟨lengthsFit, rfl⟩ :=
      (countColumn dateText store false _ stats _).mp ⟨_, lengths, lengthsBuilt⟩
    cases built
    exact ⟨fun column member => ⟨distinctFits column member, lengthsFit column member⟩, rfl⟩
  · rintro ⟨fits, rfl⟩
    obtain ⟨distinctCounts, distinct, distinctBuilt⟩ :=
      (countColumn dateText store true (·.distinctCount) stats _).mpr
        ⟨fun column member => (fits column member).1, rfl⟩
    obtain ⟨maxStringLengths, lengths, lengthsBuilt⟩ :=
      (countColumn dateText store false (·.maxStringLength) stats _).mpr
        ⟨fun column member => (fits column member).2, rfl⟩
    simp only [assemble, distinct, lengths, names, nulls, notNulls, unicode, distinctBuilt,
      lengthsBuilt, except_ok_bind]
    rfl

/-! ## One backend -/

/-- The bounds of every row, from the child that its code names, under the row's own type. -/
def ReadsBack (stats : List ColumnStatistics) (batch : StatisticsBatch) : Prop :=
  ∀ (row : Nat) column, stats[row]? = some column →
    ∃ low high, richToCanonical dateText column.arrowType column.min = .ok low ∧
      richToCanonical dateText column.arrowType column.max = .ok high ∧
      batch.min.at? row = some (column.arrowType, low) ∧
      batch.max.at? row = some (column.arrowType, high)

/-- The codec of each type accepts the bounds. -/
def BoundsAccepted (stats : List ColumnStatistics) : Prop :=
  ∀ column ∈ stats,
    (∃ low, richToCanonical dateText column.arrowType column.min = .ok low) ∧
      ∃ high, richToCanonical dateText column.arrowType column.max = .ok high

/-- The keys tell the types apart, their codes fit an int8 and each bound survives a column of
its type. -/
structure Representable (typeKey : DataType → Text) (stats : List ColumnStatistics) : Prop where
  types : ∀ left ∈ stats, ∀ right ∈ stats,
    typeKey left.arrowType = typeKey right.arrowType → left.arrowType = right.arrowType
  codes : (stats.map fun column => typeKey column.arrowType).dedup.length ≤ 128
  kept : ∀ column ∈ stats, ∀ bound canonical, bound = column.min ∨ bound = column.max →
    richToCanonical dateText column.arrowType bound = .ok canonical →
      store.keep column.arrowType canonical = .ok canonical

/-- What a child holds for a rich value, where a backend may skip the codec. -/
def KeepsLoosely (type : DataType) (value : Rich) (kept : Value) : Prop :=
  (type = .null ∧ kept = .null) ∨ (value = .null ∧ kept = .null) ∨
    Keeps dateText store type value kept

/-- What the two union builders have in common. -/
structure LawfulBuilder
    (build : List Rich → List Nat → List DataType → Except StatisticsFault UnionColumn) : Prop where
  holds : ∀ values codes typeOrder column, build values codes typeOrder = .ok column →
    UnionHolds (KeepsLoosely dateText store) values codes typeOrder column
  builds : ∀ (values : List Rich) (codes : List Nat) (typeOrder : List DataType),
    (∀ type ∈ typeOrder, richToCanonical dateText type .null = .ok .null) →
    (∀ code ∈ codes, code < typeOrder.length) →
    (∀ row code : Nat, ∀ value type, values[row]? = some value → codes[row]? = some code →
      typeOrder[code]? = some type → ∃ kept, Keeps dateText store type value kept) →
    ∃ column, build values codes typeOrder = .ok column

private theorem UnionHolds.imp {Kept Other : DataType → Rich → Value → Prop} {values : List Rich}
    {codes : List Nat} {typeOrder : List DataType} {column : UnionColumn}
    (holds : UnionHolds Kept values codes typeOrder column)
    (weaken : ∀ type value kept, Kept type value kept → Other type value kept) :
    UnionHolds Other values codes typeOrder column := by
  refine ⟨holds.typeIds, holds.childIds, holds.types, ?_⟩
  intro code type named
  obtain ⟨cells, child, rows⟩ := holds.cells code type named
  refine ⟨cells, child, ?_⟩
  intro row value here coded
  obtain ⟨kept, cell, keeps⟩ := rows row value here coded
  exact ⟨kept, cell, weaken type value kept keeps⟩

theorem ArrowJs.lawful : LawfulBuilder dateText store (ArrowJs.buildUnionColumn dateText store) where
  holds values codes typeOrder column built :=
    (ArrowJs.union_holds dateText store values codes typeOrder column built).imp
      fun _ _ _ keeps => keeps.imp_right .inr
  builds values codes typeOrder nulls _ each :=
    ArrowJs.union_builds dateText store values codes typeOrder nulls each

theorem Flechette.lawful :
    LawfulBuilder dateText store (Flechette.buildUnionColumn dateText store) where
  holds values codes typeOrder column built :=
    (Flechette.union_holds dateText store values codes typeOrder column built).imp
      fun _ _ _ keeps => .inr keeps
  builds values codes typeOrder _ bounded each :=
    Flechette.union_builds dateText store values codes typeOrder bounded each

/-- A value that the codec accepts is kept in its canonical form. -/
private theorem keeps_canonical (type : DataType) (value : Rich) (kept canonical : Value)
    (keeps : KeepsLoosely dateText store type value kept)
    (converted : richToCanonical dateText type value = .ok canonical) :
    store.keep type canonical = .ok kept := by
  rcases keeps with ⟨rfl, rfl⟩ | ⟨rfl, rfl⟩ | ⟨other, again, stored⟩
  · have isNull : canonical = .null := by
      cases value <;> cases converted <;> rfl
    rw [isNull]
    exact store.null _
  · rcases richToCanonical_null dateText type with passes | rejects
    · cases passes.symm.trans converted
      exact store.null _
    · obtain ⟨fault, rejected⟩ := rejects .null
      cases rejected.symm.trans converted
  · cases again.symm.trans converted
    exact stored

section Backend

variable (typeKey : DataType → Text)
  (buildUnionColumn : List Rich → List Nat → List DataType → Except StatisticsFault UnionColumn)
  (lawful : LawfulBuilder dateText store buildUnionColumn) (flagsNullable : Bool)
  (emptyBatch : StatisticsBatch) (stats : List ColumnStatistics) (nonempty : stats ≠ [])

/-- The types that name the codes, and the codes of the rows. -/
private abbrev typeCodes : List DataType × List Nat :=
  KeyCodes.assign typeKey [] (stats.map (·.arrowType))

include nonempty in
/-- A batch that was built, from its two unions. -/
private theorem built_iff (batch : StatisticsBatch) :
    buildStatisticsBatchBy dateText store typeKey buildUnionColumn flagsNullable emptyBatch stats =
        .ok batch ↔
      ∃ min max, buildUnionColumn (stats.map (·.min)) (typeCodes typeKey stats).2
          (typeCodes typeKey stats).1 = .ok min ∧
        buildUnionColumn (stats.map (·.max)) (typeCodes typeKey stats).2
          (typeCodes typeKey stats).1 = .ok max ∧
        CountsFit stats ∧ batch = assembled flagsNullable stats min max := by
  have notEmpty : stats.isEmpty = false := by
    rw [List.isEmpty_eq_false_iff]
    exact nonempty
  rw [buildStatisticsBatchBy, notEmpty]
  constructor
  · intro built
    obtain ⟨min, minBuilt, built⟩ := except_bind_ok _ _ _ built
    obtain ⟨max, maxBuilt, built⟩ := except_bind_ok _ _ _ built
    obtain ⟨fits, rfl⟩ := (assemble_iff dateText store _ _ _ _ _).mp built
    exact ⟨min, max, minBuilt, maxBuilt, fits, rfl⟩
  · rintro ⟨min, max, minBuilt, maxBuilt, fits, rfl⟩
    simp only [Bool.false_eq_true, if_false, minBuilt, maxBuilt, except_ok_bind]
    exact (assemble_iff dateText store _ _ _ _ _).mpr ⟨fits, rfl⟩

/-- Where keys tell types apart, a row's code names the row's own type. -/
private theorem row_code (types : ∀ left ∈ stats, ∀ right ∈ stats,
      typeKey left.arrowType = typeKey right.arrowType → left.arrowType = right.arrowType)
    (row : Nat) (column : ColumnStatistics) (here : stats[row]? = some column) :
    ∃ code, (typeCodes typeKey stats).2[row]? = some code ∧
      (typeCodes typeKey stats).1[code]? = some column.arrowType := by
  have typeHere : (stats.map (·.arrowType))[row]? = some column.arrowType := by
    rw [List.getElem?_map, here, Option.map_some]
  obtain ⟨code, first, coded, named, same⟩ := KeyCodes.code_at typeKey _ row _ typeHere
  obtain ⟨position, firstHere, _⟩ := KeyCodes.code_first typeKey _ code first named
  rw [List.getElem?_map, Option.map_eq_some_iff] at firstHere
  obtain ⟨other, otherHere, rfl⟩ := firstHere
  have equal := types other (List.mem_of_getElem? otherHere) column (List.mem_of_getElem? here) same
  exact ⟨code, coded, by rw [named, equal]⟩

/-- Rows of one code are read under one type. -/
private theorem type_of_code (column : UnionColumn) (left right : Nat)
    (leftType rightType : DataType) (leftValue rightValue : Value)
    (sameCode : column.typeIds[left]? = column.typeIds[right]?)
    (leftRead : column.at? left = some (leftType, leftValue))
    (rightRead : column.at? right = some (rightType, rightValue)) : leftType = rightType := by
  have named : ∀ row : Nat, (column.at? row).map (·.1) =
      (do
        let code ← column.typeIds[row]?
        let position ← column.childIds.idxOf? code
        let child ← column.children[position]?
        some child.1) := by
    intro row
    simp only [UnionColumn.at?]
    cases column.typeIds[row]? with
    | none => rfl
    | some code =>
        cases found : column.childIds.idxOf? code with
        | none => simp [found]
        | some position =>
            cases child : column.children[position]? with
            | none => simp [found, child]
            | some child => simp [found, child]
  have leftNamed := named left
  have rightNamed := named right
  rw [leftRead, sameCode, ← rightNamed, rightRead] at leftNamed
  exact Option.some.inj leftNamed

/-- A row's bound is what its column keeps, where types and codes suffice. -/
private theorem row_read (pick : ColumnStatistics → Rich) (column : UnionColumn)
    (holds : UnionHolds (KeepsLoosely dateText store) (stats.map pick) (typeCodes typeKey stats).2
      (typeCodes typeKey stats).1 column)
    (types : ∀ left ∈ stats, ∀ right ∈ stats,
      typeKey left.arrowType = typeKey right.arrowType → left.arrowType = right.arrowType)
    (codes : (typeCodes typeKey stats).1.length ≤ 128) (row : Nat) (own : ColumnStatistics)
    (here : stats[row]? = some own) (canonical : Value)
    (converted : richToCanonical dateText own.arrowType (pick own) = .ok canonical) :
    ∃ kept, store.keep own.arrowType canonical = .ok kept ∧
      column.at? row = some (own.arrowType, kept) := by
  obtain ⟨code, coded, named⟩ := row_code typeKey stats types row own here
  have small := (List.getElem?_eq_some_iff.mp named).1
  have value : (stats.map pick)[row]? = some (pick own) := by
    rw [List.getElem?_map, here, Option.map_some]
  obtain ⟨kept, keeps, read⟩ := holds.at_small row code own.arrowType (pick own) value coded named
    (Nat.lt_of_lt_of_le small codes)
  exact ⟨kept, keeps_canonical dateText store _ _ _ _ keeps converted, read⟩

private theorem length_codes : (typeCodes typeKey stats).1.length =
    (stats.map fun column => typeKey column.arrowType).dedup.length := by
  rw [KeyCodes.length_assign, List.map_map]
  rfl

/-- Rows that are all read under their own types have keys that tell these apart. -/
private theorem types_of_reads (batch : StatisticsBatch)
    (holds : UnionHolds (KeepsLoosely dateText store) (stats.map (·.min))
      (typeCodes typeKey stats).2 (typeCodes typeKey stats).1 batch.min)
    (reads : ReadsBack dateText stats batch) :
    ∀ left ∈ stats, ∀ right ∈ stats,
      typeKey left.arrowType = typeKey right.arrowType → left.arrowType = right.arrowType := by
  intro left leftMember right rightMember same
  obtain ⟨leftRow, leftHere⟩ := List.mem_iff_getElem?.mp leftMember
  obtain ⟨rightRow, rightHere⟩ := List.mem_iff_getElem?.mp rightMember
  have typeAt (row : Nat) (column : ColumnStatistics) (here : stats[row]? = some column) :
      (stats.map (·.arrowType))[row]? = some column.arrowType := by
    rw [List.getElem?_map, here, Option.map_some]
  obtain ⟨leftCode, leftFirst, leftCoded, leftNamed, leftKey⟩ :=
    KeyCodes.code_at typeKey _ leftRow _ (typeAt leftRow left leftHere)
  obtain ⟨rightCode, rightFirst, rightCoded, rightNamed, rightKey⟩ :=
    KeyCodes.code_at typeKey _ rightRow _ (typeAt rightRow right rightHere)
  have sameCode : leftCode = rightCode := KeyCodes.code_eq_of_key_eq typeKey _ _ _ _ _ leftNamed
    rightNamed (leftKey.trans (same.trans rightKey.symm))
  obtain ⟨_, _, _, _, leftRead, _⟩ := reads leftRow left leftHere
  obtain ⟨_, _, _, _, rightRead, _⟩ := reads rightRow right rightHere
  refine type_of_code batch.min leftRow rightRow _ _ _ _ ?_ leftRead rightRead
  rw [holds.typeIds, List.getElem?_map, List.getElem?_map, leftCoded, rightCoded, sameCode]

/-- Rows that are all read have at most 128 codes between them. -/
private theorem codes_of_reads (batch : StatisticsBatch)
    (holds : UnionHolds (KeepsLoosely dateText store) (stats.map (·.min))
      (typeCodes typeKey stats).2 (typeCodes typeKey stats).1 batch.min)
    (reads : ReadsBack dateText stats batch) : (typeCodes typeKey stats).1.length ≤ 128 := by
  by_contra many
  have bound : 128 < (typeCodes typeKey stats).1.length := by omega
  obtain ⟨row, here, coded⟩ :=
    KeyCodes.code_first typeKey _ 128 _ (List.getElem?_eq_getElem bound)
  rw [List.getElem?_map, Option.map_eq_some_iff] at here
  obtain ⟨column, columnHere, _⟩ := here
  obtain ⟨_, _, _, _, read, _⟩ := reads row column columnHere
  rw [holds.at_wrapped row coded] at read
  cases read

include lawful nonempty in
/-- A backend leads every row back to its bounds exactly when they are representable. -/
theorem reads_back_iff (accepted : BoundsAccepted dateText stats) :
    (∃ batch, buildStatisticsBatchBy dateText store typeKey buildUnionColumn flagsNullable
        emptyBatch stats = .ok batch ∧ ReadsBack dateText stats batch) ↔
      Representable dateText store typeKey stats ∧ CountsFit stats := by
  constructor
  · rintro ⟨batch, built, reads⟩
    obtain ⟨min, max, minBuilt, maxBuilt, fits, rfl⟩ := (built_iff dateText store typeKey
      buildUnionColumn flagsNullable emptyBatch stats nonempty _).mp built
    have minHolds := lawful.holds _ _ _ _ minBuilt
    have maxHolds := lawful.holds _ _ _ _ maxBuilt
    have types := types_of_reads dateText store typeKey stats _ minHolds reads
    have codes := codes_of_reads dateText store typeKey stats _ minHolds reads
    refine ⟨⟨types, by rwa [← length_codes typeKey stats], ?_⟩, fits⟩
    intro column member bound canonical which converted
    obtain ⟨row, here⟩ := List.mem_iff_getElem?.mp member
    obtain ⟨low, high, lowConverted, highConverted, lowRead, highRead⟩ := reads row column here
    rcases which with rfl | rfl
    · obtain ⟨kept, stored, read⟩ := row_read dateText store typeKey stats (·.min) min minHolds types
        codes row column here canonical converted
      cases lowConverted.symm.trans converted
      cases lowRead.symm.trans read
      exact stored
    · obtain ⟨kept, stored, read⟩ := row_read dateText store typeKey stats (·.max) max maxHolds types
        codes row column here canonical converted
      cases highConverted.symm.trans converted
      cases highRead.symm.trans read
      exact stored
  · rintro ⟨representable, fits⟩
    have codes : (typeCodes typeKey stats).1.length ≤ 128 := by
      rw [length_codes typeKey stats]
      exact representable.codes
    -- the types that name the codes are those of rows, whose codecs pass null through
    have nulls : ∀ type ∈ (typeCodes typeKey stats).1,
        richToCanonical dateText type .null = .ok .null := by
      intro type member
      obtain ⟨code, named⟩ := List.mem_iff_getElem?.mp member
      obtain ⟨row, here, _⟩ := KeyCodes.code_first typeKey _ code type named
      rw [List.getElem?_map, Option.map_eq_some_iff] at here
      obtain ⟨column, columnHere, rfl⟩ := here
      rcases richToCanonical_null dateText column.arrowType with passes | rejects
      · exact passes
      · obtain ⟨low, converted⟩ := (accepted column (List.mem_of_getElem? columnHere)).1
        obtain ⟨fault, rejected⟩ := rejects column.min
        cases rejected.symm.trans converted
    have bounded : ∀ code ∈ (typeCodes typeKey stats).2,
        code < (typeCodes typeKey stats).1.length := by
      intro code member
      obtain ⟨row, coded⟩ := List.mem_iff_getElem?.mp member
      obtain ⟨type, _, first, named, _⟩ :=
        forall₂_getElem? (KeyCodes.codes_name typeKey [] _).flip row code coded
      exact (List.getElem?_eq_some_iff.mp named).1
    have cells (pick : ColumnStatistics → Rich)
        (bound : ∀ column, pick column = column.min ∨ pick column = column.max) :
        ∃ column, buildUnionColumn (stats.map pick) (typeCodes typeKey stats).2
          (typeCodes typeKey stats).1 = .ok column := by
      apply lawful.builds _ _ _ nulls bounded
      intro row code value type here coded named
      rw [List.getElem?_map, Option.map_eq_some_iff] at here
      obtain ⟨column, columnHere, rfl⟩ := here
      have member := List.mem_of_getElem? columnHere
      obtain ⟨own, ownCoded, ownNamed⟩ :=
        row_code typeKey stats representable.types row column columnHere
      cases coded.symm.trans ownCoded
      cases named.symm.trans ownNamed
      have converts : ∃ canonical,
          richToCanonical dateText column.arrowType (pick column) = .ok canonical := by
        rcases bound column with low | high
        · rw [low]
          exact (accepted column member).1
        · rw [high]
          exact (accepted column member).2
      obtain ⟨canonical, converted⟩ := converts
      exact ⟨canonical, canonical, converted,
        representable.kept column member _ canonical (bound column) converted⟩
    obtain ⟨min, minBuilt⟩ := cells (·.min) fun _ => .inl rfl
    obtain ⟨max, maxBuilt⟩ := cells (·.max) fun _ => .inr rfl
    refine ⟨assembled flagsNullable stats min max, (built_iff dateText store typeKey
      buildUnionColumn flagsNullable emptyBatch stats nonempty _).mpr
      ⟨min, max, minBuilt, maxBuilt, fits, rfl⟩, ?_⟩
    intro row column here
    have member := List.mem_of_getElem? here
    obtain ⟨low, lowConverted⟩ := (accepted column member).1
    obtain ⟨high, highConverted⟩ := (accepted column member).2
    obtain ⟨keptLow, lowStored, lowRead⟩ := row_read dateText store typeKey stats (·.min) min
      (lawful.holds _ _ _ _ minBuilt) representable.types codes row column here low lowConverted
    obtain ⟨keptHigh, highStored, highRead⟩ := row_read dateText store typeKey stats (·.max) max
      (lawful.holds _ _ _ _ maxBuilt) representable.types codes row column here high highConverted
    cases (representable.kept column member _ low (.inl rfl) lowConverted).symm.trans lowStored
    cases (representable.kept column member _ high (.inr rfl) highConverted).symm.trans highStored
    exact ⟨low, high, lowConverted, highConverted, lowRead, highRead⟩

end Backend

end

/-! ## Both backends -/

def Schema.allNullable (schema : Schema) : Schema :=
  { schema with fields := schema.fields.map fun field => { field with nullable := true } }

def SameUpToNullability (left right : Schema) : Prop :=
  left.allNullable = right.allNullable

def SameValues (left right : StatisticsBatch) : Prop :=
  left.columnName = right.columnName ∧ (∀ row, left.min.at? row = right.min.at? row) ∧
    (∀ row, left.max.at? row = right.max.at? row) ∧ left.hasNull = right.hasNull ∧
    left.hasNotNull = right.hasNotNull ∧ left.distinctCount = right.distinctCount ∧
    left.containsUnicode = right.containsUnicode ∧ left.maxStringLength = right.maxStringLength

/-- Both backends build the statistics, lead every row back to its bounds and agree, on schemas
in the sense of `SameSchema`. -/
def Faithful (SameSchema : Schema → Schema → Prop) (dateText : Number → Text)
    (arrowJs flechette : CellStore) (stats : List ColumnStatistics) : Prop :=
  ∃ left right, ArrowJs.buildStatisticsBatch dateText arrowJs stats = .ok left ∧
    Flechette.buildStatisticsBatch dateText flechette stats = .ok right ∧
    ReadsBack dateText stats left ∧ ReadsBack dateText stats right ∧
    SameSchema left.schema right.schema ∧ SameValues left right

private theorem zipIdx_fields (children : List (DataType × Column)) :
    UnionColumn.childFields children = (children.map (·.1)).zipIdx.map fun child =>
      ⟨Number.decimal child.2, child.1, true, OrderedMap.empty⟩ := by
  rw [UnionColumn.childFields, List.zipIdx_map, List.map_map]
  rfl

/-- The type of a union, from the types that name its codes. -/
private theorem UnionHolds.type_eq {Kept : DataType → Rich → Value → Prop} {values : List Rich}
    {codes : List Nat} {typeOrder : List DataType} {column : UnionColumn}
    (holds : UnionHolds Kept values codes typeOrder column) :
    column.type = .union .sparse ((List.range typeOrder.length).map Int.ofNat)
      (typeOrder.zipIdx.map fun child => ⟨Number.decimal child.2, child.1, true, .empty⟩) := by
  rw [UnionColumn.type, holds.childIds, zipIdx_fields, holds.types]

/-- No row is read past the last. -/
private theorem UnionHolds.at_past {Kept : DataType → Rich → Value → Prop} {values : List Rich}
    {codes : List Nat} {typeOrder : List DataType} {column : UnionColumn}
    (holds : UnionHolds Kept values codes typeOrder column) (row : Nat)
    (past : codes[row]? = none) : column.at? row = none := by
  simp [UnionColumn.at?, holds.typeIds, past]

private theorem codes_past (typeKey : DataType → Text) (stats : List ColumnStatistics) (row : Nat)
    (past : stats[row]? = none) : (typeCodes typeKey stats).2[row]? = none := by
  have length := (KeyCodes.codes_name typeKey [] (stats.map (·.arrowType))).length_eq
  rw [List.getElem?_eq_none_iff] at past ⊢
  rw [List.length_map] at length
  exact length ▸ past

def plainStore : CellStore where
  keep
    | _, .string value => .ok (.string (dropBom (toWellFormed value)))
    | _, value => .ok value
  null _ := rfl
  bool _ := rfl
  utf8 _ := rfl
  int64 _ _ _ _ := rfl

/-- A column whose bounds are 0 and `max`. -/
def sampleStatistics (signed : Bool) (max : Int) : ColumnStatistics where
  columnName := text "n"
  arrowType := .int 32 signed
  min := .bigint 0
  max := .bigint max
  hasNull := false
  hasNotNull := true
  distinctCount := none
  containsUnicode := none
  maxStringLength := none

theorem boundsAccepted_sample (dateText : Number → Text) :
    BoundsAccepted dateText [sampleStatistics true 7, sampleStatistics false 4294967295] := by
  intro column member
  simp only [List.mem_cons, List.not_mem_nil, or_false] at member
  rcases member with rfl | rfl
  · exact ⟨⟨.bigint 0, by rfl⟩, ⟨.bigint 7, by rfl⟩⟩
  · exact ⟨⟨.bigint 0, by rfl⟩, ⟨.bigint 4294967295, by rfl⟩⟩

end VgiWorker.Arrow
