import VgiWorker.Arrow.NestedCells
import VgiWorker.Arrow.CodecFidelity

/-!
# What nested columns give back

A column gives its cells back exactly when no struct puts one member in place of
another, no row reaches a union and the library keeps the dictionaries.
-/

set_option autoImplicit false

namespace VgiWorker.Arrow.Nested

open VgiWorker.Js

section

variable {library : VectorLibrary} (nested : NestedVectors library)

/-! ## Nulls -/

theorem validity_null (cells : List Value) (index : Nat)
    (here : cells[index]? = some .null) : (validity cells)[index]?.getD false = false := by
  simp [validity, here, isCanonicalNull]

theorem validity_value (cells : List Value) (index : Nat) (cell : Value)
    (here : cells[index]? = some cell) (notNull : cell ≠ .null) :
    (validity cells)[index]?.getD false = true := by
  have filled : isCanonicalNull cell = false :=
    Bool.eq_false_iff.mpr fun null => notNull ((isCanonicalNull_iff cell).mp null)
  simp [validity, here, filled]

theorem build_leaf (type : DataType) (isLeaf : type.isLeaf = true) (cells : List Value) :
    buildColumnData nested type cells =
      NestedData.leaf <$> writeCanonicalColumn library type cells := by
  cases type with
  | _ =>
      first
      | exact absurd isLeaf Bool.false_ne_true
      | rw [buildColumnData] <;> simp

theorem read_leaf (type : DataType) (isLeaf : type.isLeaf = true)
    (column : ColumnData library) (index : Nat) :
    readCanonicalValue library type (.leaf column) index =
      readFromData library type column index := by
  cases type with
  | _ =>
      first
      | exact absurd isLeaf Bool.false_ne_true
      | rw [readCanonicalValue]

theorem leaf_built (type : DataType) (isLeaf : type.isLeaf = true) (cells : List Value)
    (data : NestedData library) (built : buildColumnData nested type cells = .ok data) :
    ∃ column, data = .leaf column ∧ writeCanonicalColumn library type cells = .ok column := by
  rw [build_leaf nested type isLeaf] at built
  cases written : writeCanonicalColumn library type cells with
  | error fault =>
      rw [written] at built
      cases built
  | ok column =>
      rw [written] at built
      cases built
      exact ⟨column, rfl, rfl⟩

/-- A null is read as null. -/
theorem read_null (type : DataType) (cells : List Value) (data : NestedData library)
    (built : buildColumnData nested type cells = .ok data) (index : Nat)
    (here : cells[index]? = some .null) : readCanonicalValue library type data index = .null := by
  have invalid := validity_null cells index here
  have leaf (isLeaf : type.isLeaf = true) : readCanonicalValue library type data index = .null := by
    obtain ⟨column, rfl, written⟩ := leaf_built nested type isLeaf cells data built
    rw [read_leaf type isLeaf]
    exact reads_null library type cells column index written here
  cases type with
  | list children =>
      rw [buildColumnData] at built
      obtain ⟨child, _, built⟩ := except_bind_ok _ _ _ built
      cases built
      simp [readCanonicalValue, invalid]
  | fixedSizeList listSize children =>
      rw [buildColumnData] at built
      obtain ⟨slots, _, built⟩ := except_bind_ok _ _ _ built
      obtain ⟨child, _, built⟩ := except_bind_ok _ _ _ built
      cases built
      simp [readCanonicalValue, invalid]
  | map keysSorted children =>
      rw [buildColumnData] at built
      obtain ⟨rows, _, built⟩ := except_bind_ok _ _ _ built
      obtain ⟨entries, _, built⟩ := except_bind_ok _ _ _ built
      cases built
      simp [readCanonicalValue, invalid]
  | struct children =>
      rw [buildColumnData] at built
      obtain ⟨columns, _, built⟩ := except_bind_ok _ _ _ built
      cases built
      simp [readCanonicalValue, invalid]
  | dictionary id dictionary indices ordered =>
      rw [buildColumnData] at built
      exact nested.nullKey id dictionary indices ordered cells data index built here
  | union mode typeIds children =>
      rw [buildColumnData] at built
      rw [nested.unionNeedsCode mode typeIds children cells data built] at here
      cases here
  | _ => exact leaf rfl

/-! ## Cells that a struct hands on -/

/-- Cells that differ from those to be given back only where these are null. -/
structure Fills (written held : List Value) : Prop where
  lengths : written.length = held.length
  kept : ∀ (index : Nat) cell, held[index]? = some cell → cell ≠ .null →
    written[index]? = some cell

private theorem fills_refl (cells : List Value) : Fills cells cells :=
  ⟨rfl, fun _ _ here _ => here⟩

/-- Where only nulls are read as null, nothing stands in place of a null. -/
private theorem written_eq (type : DataType) (written held : List Value) (fills : Fills written held)
    (present : ∀ data (index : Nat) cell, buildColumnData nested type written = .ok data →
      written[index]? = some cell → readCanonicalValue library type data index = .null →
      cell = .null)
    (gives : Gives nested type written held) : written = held := by
  obtain ⟨data, built, reads⟩ := gives
  refine List.ext_getElem? fun index => ?_
  cases isHeld : held[index]? with
  | none =>
      rw [List.getElem?_eq_none_iff] at isHeld ⊢
      rw [fills.lengths]
      exact isHeld
  | some cell =>
      by_cases null : cell = .null
      · subst null
        have inside := (List.getElem?_eq_some_iff.mp isHeld).1
        obtain ⟨other, isWritten⟩ : ∃ other, written[index]? = some other :=
          ⟨_, List.getElem?_eq_getElem (by rw [fills.lengths]; exact inside)⟩
        have isNull := present data index other built isWritten (reads index .null isHeld)
        rw [isWritten, isNull]
      · exact fills.kept index cell isHeld null

/-! ## Children of lists -/

/-- A child column of these items gives each of them. -/
def ChildGives (children : List Field) (items : List Value) (type : DataType) : Prop :=
  ∃ child, buildItems nested children items = .ok child ∧
    ∀ (position : Nat) item, items[position]? = some item →
      readCanonicalValue library type child position = item

private theorem childGives_iff (item : Field) (rest : List Field) (items : List Value) :
    ChildGives nested (item :: rest) items item.type ↔
      items = [] ∨ RoundTrips nested item.type items := by
  obtain ⟨name, type, nullable, metadata⟩ := item
  by_cases none : items = []
  · subst none
    refine ⟨fun _ => .inl rfl, fun _ => ⟨.empty, ?_, nofun⟩⟩
    simp [buildItems]
  · have filled : items.isEmpty = false := by simpa using none
    simp only [ChildGives, buildItems, filled, none, false_or]
    rfl

/-! ## Lists -/

private theorem roundTrips_list (item : Field) (rest : List Field) (cells : List Value)
    (arrays : ∀ cell ∈ cells, cell = .null ∨ ∃ items, cell = .array items) :
    RoundTrips nested (.list (item :: rest)) cells ↔
      ChildGives nested (item :: rest) (cells.flatMap itemsOf) item.type := by
  obtain ⟨name, type, nullable, metadata⟩ := item
  have rows (child : NestedData library) :=
    Data.readRow_iff itemsOf (readCanonicalValue library type child) cells (· ≠ .null)
      (fun row _ null position item member _ => by
        obtain rfl : row = .null := not_not.mp null
        cases member)
  constructor
  · rintro ⟨data, built, reads⟩
    rw [buildColumnData] at built
    obtain ⟨child, made, built⟩ := except_bind_ok _ _ _ built
    cases built
    refine ⟨child, made, (rows child).mp fun index row here notNull => ?_⟩
    have read := reads index row here
    rcases arrays row (List.mem_of_getElem? here) with null | ⟨items, rfl⟩
    · exact absurd null notNull
    · rw [readCanonicalValue, if_pos (validity_value cells index _ here notNull)] at read
      exact Value.array.inj read
  · rintro ⟨child, made, each⟩
    refine ⟨_, by rw [buildColumnData, made]; rfl, fun index cell here => ?_⟩
    rcases arrays cell (List.mem_of_getElem? here) with rfl | ⟨items, rfl⟩
    · simp [readCanonicalValue, validity_null cells index here]
    · rw [readCanonicalValue, if_pos (validity_value cells index _ here nofun)]
      exact congrArg Value.array ((rows child).mpr each index _ here nofun)

/-! ## Fixed-size lists -/

theorem allSlots_eq (listSize : Nat) (cells : List Value) (index : Nat)
    (sized : ∀ cell ∈ cells, cell = .null ∨ ∃ items, cell = .array items ∧
      items.length = listSize) :
    allSlots listSize index cells = .ok (cells.flatMap (slotItems listSize)) := by
  induction cells generalizing index with
  | nil => rfl
  | cons cell rest ih =>
      have first : slotsOf listSize index cell = .ok (slotItems listSize cell) := by
        rcases sized cell List.mem_cons_self with rfl | ⟨items, rfl, length⟩
        · rfl
        · simp [slotsOf, slotItems, isCanonicalNull, itemsOf, length]
      rw [allSlots, first, except_ok_bind,
        ih (index + 1) fun other member => sized other (List.mem_cons_of_mem _ member)]
      rfl

theorem readList_fixed (listSize : Nat) (cells : List Value)
    (sized : ∀ cell ∈ cells, cell = .null ∨ ∃ items, cell = .array items ∧
      items.length = listSize) (read : Nat → Value) (index : Nat) (inside : index < cells.length) :
    Data.readBetween read (index * listSize) (index * listSize + listSize) =
      Data.readRow read (Data.rowOffsets (fun row => (slotItems listSize row).length) 0 cells)
        index := by
  have uniform : ∀ row ∈ cells, (slotItems listSize row).length = listSize := by
    intro row member
    rcases sized row member with rfl | ⟨items, rfl, length⟩
    · exact List.length_replicate
    · exact length
  have offset := Data.rowOffsets_uniform (fun row => (slotItems listSize row).length) listSize 0
    cells uniform
  rw [Data.readRow, offset index (Nat.le_of_lt inside), offset (index + 1) inside, Nat.zero_add,
    Nat.zero_add, Option.getD_some, Option.getD_some, Nat.succ_mul]

private theorem roundTrips_fixedSizeList (listSize : Nat) (item : Field) (rest : List Field)
    (cells : List Value)
    (sized : ∀ cell ∈ cells, cell = .null ∨ ∃ items, cell = .array items ∧
      items.length = listSize) :
    RoundTrips nested (.fixedSizeList listSize (item :: rest)) cells ↔
      ChildGives nested (item :: rest) (cells.flatMap (slotItems listSize)) item.type := by
  obtain ⟨name, type, nullable, metadata⟩ := item
  have slots := allSlots_eq listSize cells 0 sized
  -- The slots of a null row are null, and so the child gives them back whatever it holds.
  have rows (child : NestedData library)
      (made : buildItems nested (⟨name, type, nullable, metadata⟩ :: rest)
        (cells.flatMap (slotItems listSize)) = .ok child) :=
    Data.readRow_iff (slotItems listSize) (readCanonicalValue library type child) cells (· ≠ .null)
      (fun row _ null position item member here => by
        obtain rfl : row = .null := not_not.mp null
        obtain rfl := List.eq_of_mem_replicate member
        rw [buildItems] at made
        split at made
        · rename_i empty
          rw [List.isEmpty_iff.mp empty] at here
          cases here
        · exact read_null nested type _ child made position here)
  constructor
  · rintro ⟨data, built, reads⟩
    rw [buildColumnData, slots, except_ok_bind] at built
    obtain ⟨child, made, built⟩ := except_bind_ok _ _ _ built
    cases built
    refine ⟨child, made, (rows child made).mp fun index row here notNull => ?_⟩
    have read := reads index row here
    rcases sized row (List.mem_of_getElem? here) with null | ⟨items, rfl, length⟩
    · exact absurd null notNull
    · rw [readCanonicalValue, if_pos (validity_value cells index _ here notNull)] at read
      rw [← readList_fixed listSize cells sized _ index (List.getElem?_eq_some_iff.mp here).1]
      exact Value.array.inj read
  · rintro ⟨child, made, each⟩
    refine ⟨_, by rw [buildColumnData, slots, except_ok_bind, made]; rfl, fun index cell here => ?_⟩
    rcases sized cell (List.mem_of_getElem? here) with rfl | ⟨items, rfl, length⟩
    · simp [readCanonicalValue, validity_null cells index here]
    · rw [readCanonicalValue, if_pos (validity_value cells index _ here nofun)]
      refine congrArg Value.array ?_
      have read := (rows child made).mpr each index _ here nofun
      rw [← readList_fixed listSize cells sized _ index
        (List.getElem?_eq_some_iff.mp here).1] at read
      exact read

/-! ## Maps -/

theorem pairsOf_pairCells (pairs : List (Value × Value)) :
    pairsOf (.array (pairs.map pairCell)) = .ok pairs := by
  have each : (pairs.map pairCell).mapM pairOf = pairs.mapM fun pair => .ok pair := by
    rw [List.mapM_map]
    rfl
  have same := except_mapM_eq (fun pair : Value × Value => (Except.ok pair : Except Text _)) id pairs
    fun _ _ => rfl
  rw [List.map_id] at same
  rw [pairsOf, itemsOf, each]
  · exact same
  · nofun

/-- A column of these keys and one of these values give each of the pairs. -/
def EntriesGive (keyType valueType : DataType) (pairs : List (Value × Value)) : Prop :=
  pairs = [] ∨ RoundTrips nested keyType (pairs.map Prod.fst) ∧
    RoundTrips nested valueType (pairs.map Prod.snd)

private theorem entriesGive_iff (children : List Field) (keyType valueType : DataType)
    (types : mapEntryTypes? children = some (keyType, valueType))
    (pairs : List (Value × Value)) :
    (∃ entries, buildEntries nested children pairs = .ok entries ∧
      ∀ (position : Nat) pair, pairs[position]? = some pair →
        (readCanonicalValue library keyType entries.1 position,
          readCanonicalValue library valueType entries.2 position) = pair) ↔
      EntriesGive nested keyType valueType pairs := by
  obtain ⟨_, _, _, _, _, _, _, _, _, _, _, rfl⟩ :=
    mapEntryTypes?_children children keyType valueType types
  by_cases none : pairs = []
  · subst none
    refine ⟨fun _ => .inl rfl, fun _ => ⟨(.empty, .empty), ?_, nofun⟩⟩
    simp [buildEntries]
  · have filled : pairs.isEmpty = false := by simpa using none
    simp only [EntriesGive, none, false_or, buildEntries, filled]
    constructor
    · rintro ⟨entries, built, reads⟩
      obtain ⟨keys, madeKeys, built⟩ := except_bind_ok _ _ _ built
      obtain ⟨values, madeValues, built⟩ := except_bind_ok _ _ _ built
      cases built
      refine ⟨⟨keys, madeKeys, fun index cell here => ?_⟩,
        ⟨values, madeValues, fun index cell here => ?_⟩⟩
      · rw [List.getElem?_map, Option.map_eq_some_iff] at here
        obtain ⟨pair, isPair, rfl⟩ := here
        exact congrArg Prod.fst (reads index pair isPair)
      · rw [List.getElem?_map, Option.map_eq_some_iff] at here
        obtain ⟨pair, isPair, rfl⟩ := here
        exact congrArg Prod.snd (reads index pair isPair)
    · rintro ⟨⟨keys, madeKeys, readsKeys⟩, ⟨values, madeValues, readsValues⟩⟩
      refine ⟨(keys, values), ?_, fun index pair here => ?_⟩
      · simp [madeKeys, madeValues]
      · refine Prod.ext (readsKeys index pair.1 ?_) (readsValues index pair.2 ?_)
        · rw [List.getElem?_map, here]
          rfl
        · rw [List.getElem?_map, here]
          rfl

theorem readMap_eq (children : List Field) (keyType valueType : DataType)
    (types : mapEntryTypes? children = some (keyType, valueType))
    (keys values : NestedData library) (start finish : Nat) :
    readMap library children keys values start finish =
      (Data.readBetween (fun position => (readCanonicalValue library keyType keys position,
        readCanonicalValue library valueType values position)) start finish).map pairCell := by
  obtain ⟨_, _, _, _, _, _, _, _, _, _, _, rfl⟩ :=
    mapEntryTypes?_children children keyType valueType types
  rw [readMap]

private theorem pairCell_injective : Function.Injective pairCell := by
  rintro ⟨leftKey, leftValue⟩ ⟨rightKey, rightValue⟩ same
  cases same
  rfl

private theorem roundTrips_map (keysSorted : Bool) (children : List Field)
    (keyType valueType : DataType) (types : mapEntryTypes? children = some (keyType, valueType))
    (cells : List Value)
    (maps : ∀ cell ∈ cells, cell = .null ∨ ∃ pairs : List (Value × Value),
      cell = .array (pairs.map pairCell)) :
    RoundTrips nested (.map keysSorted children) cells ↔
      EntriesGive nested keyType valueType (cells.flatMap pairList) := by
  have pairs : cells.mapM pairsOf = .ok (cells.map pairList) := by
    refine except_mapM_eq pairsOf pairList cells fun cell member => ?_
    rcases maps cell member with rfl | ⟨pairs, rfl⟩
    · rfl
    · rw [pairList, pairsOf_pairCells]
  have offsets : Data.rowOffsets List.length 0 (cells.map pairList) =
      Data.rowOffsets (fun row => (pairList row).length) 0 cells :=
    Data.rowOffsets_map List.length pairList 0 cells
  have flat : (cells.map pairList).flatten = cells.flatMap pairList := List.flatMap_def.symm
  have rows (entries : NestedData library × NestedData library) :=
    Data.readRow_iff pairList (fun position => (readCanonicalValue library keyType entries.1 position,
      readCanonicalValue library valueType entries.2 position)) cells (· ≠ .null)
      (fun row _ null position item member _ => by
        obtain rfl : row = .null := not_not.mp null
        cases member)
  rw [← entriesGive_iff nested children keyType valueType types]
  constructor
  · rintro ⟨data, built, reads⟩
    rw [buildColumnData, pairs, except_ok_bind, offsets, flat] at built
    obtain ⟨entries, made, built⟩ := except_bind_ok _ _ _ built
    cases built
    refine ⟨entries, made, (rows entries).mp fun index row here notNull => ?_⟩
    have read := reads index row here
    rcases maps row (List.mem_of_getElem? here) with null | ⟨given, rfl⟩
    · exact absurd null notNull
    · rw [readCanonicalValue, if_pos (validity_value cells index _ here notNull),
        readMap_eq children keyType valueType types] at read
      rw [pairList, pairsOf_pairCells]
      exact pairCell_injective.list_map (Value.array.inj read)
  · rintro ⟨entries, made, each⟩
    refine ⟨_, by rw [buildColumnData, pairs, except_ok_bind, offsets, flat, made]; rfl,
      fun index cell here => ?_⟩
    rcases maps cell (List.mem_of_getElem? here) with rfl | ⟨given, rfl⟩
    · simp [readCanonicalValue, validity_null cells index here]
    · rw [readCanonicalValue, if_pos (validity_value cells index _ here nofun),
        readMap_eq children keyType valueType types]
      have read := (rows entries).mpr each index _ here nofun
      rw [pairList, pairsOf_pairCells] at read
      exact congrArg (fun pairs => Value.array (pairs.map pairCell)) read

/-! ## Structs -/

private theorem rowMember_object (names : List Text) (held : Text → Value) (key : Text)
    (isKey : key ∈ names) :
    rowMember (.object (objectOf (names.map fun name => (name, held name)))) key = held key := by
  obtain ⟨value, member, found⟩ := lookup_objectOf (names.map fun name => (name, held name)) key
    (by rwa [List.map_map, show Prod.fst ∘ (fun name => (name, held name)) = id from rfl,
      List.map_id])
  obtain ⟨name, _, same⟩ := List.mem_map.mp member
  cases same
  rw [rowMember, found, Option.getD_some]

private theorem readStruct_names (children : List Field) (columns : List (NestedData library))
    (index : Nat) :
    (readStruct library children columns index).map Prod.fst = children.map FieldOf.name := by
  induction children generalizing columns with
  | nil => cases columns <;> rfl
  | cons child rest ih =>
      obtain ⟨name, type, nullable, metadata⟩ := child
      cases columns with
      | nil => rw [readStruct, List.map_cons, List.map_cons, ih]
      | cons column columns => rw [readStruct, List.map_cons, List.map_cons, ih]

private theorem map_ext (left right : OrderedMap Text Value) (same : left.entries = right.entries) :
    left = right := by
  cases left
  cases right
  cases same
  rfl

/-- Members fill an object with what each of its names stands for. -/
private theorem objectOf_eq_iff (members : List (Text × Value)) (names : List Text)
    (named : members.map Prod.fst = names) (held : Text → Value) :
    objectOf members = objectOf (names.map fun name => (name, held name)) ↔
      ∀ key ∈ names, OrderedMap.lastOf members key = some (held key) := by
  have sameNames : members.map Prod.fst = (names.map fun name => (name, held name)).map Prod.fst := by
    rw [List.map_map, named]
    exact (List.map_id names).symm
  have last (key : Text) (isKey : key ∈ names) :
      OrderedMap.lastOf (names.map fun name => (name, held name)) key = some (held key) := by
    have isName : (OrderedMap.lastOf (names.map fun name => (name, held name)) key).isSome = true := by
      rw [OrderedMap.lastOf, lookupEntry_isSome, List.map_reverse, List.mem_reverse, ← sameNames,
        named]
      exact isKey
    obtain ⟨value, isLast⟩ := Option.isSome_iff_exists.mp isName
    have member := List.mem_reverse.mp (mem_of_lookupEntry _ key value isLast)
    obtain ⟨name, _, same⟩ := List.mem_map.mp member
    cases same
    exact isLast
  have agree := OrderedMap.setAll_eq_iff members (names.map fun name => (name, held name)) sameNames
  constructor
  · intro same key isKey
    have maps : (OrderedMap.empty : OrderedMap Text Value).setAll members =
        OrderedMap.empty.setAll (names.map fun name => (name, held name)) :=
      map_ext _ _ same
    rw [agree.mp maps key (named ▸ isKey), last key isKey]
  · intro each
    refine congrArg OrderedMap.entries (agree.mpr fun key isKey => ?_)
    rw [each key (named ▸ isKey), last key (named ▸ isKey)]

/-- The columns of these children give the members of the rows that are not null. -/
def GivesMembers (children : List Field) (index : Nat) (rows : List Value) : Prop :=
  ∃ columns, buildStructData nested children index rows = .ok columns ∧
    ∀ (position : Nat) row, rows[position]? = some row → row ≠ .null →
      ∀ key ∈ children.map FieldOf.name,
        OrderedMap.lastOf (readStruct library children columns position) key =
          some (rowMember row key)

private theorem lastOf_isSome (members : List (Text × Value)) (key : Text) :
    (OrderedMap.lastOf members key).isSome = true ↔ key ∈ members.map Prod.fst := by
  rw [OrderedMap.lastOf, lookupEntry_isSome, List.map_reverse, List.mem_reverse]

/-- The first member counts where no later one has its name. -/
private theorem lastOf_cons_iff (name : Text) (value : Value) (members : List (Text × Value))
    (names : List Text) (named : members.map Prod.fst = names) (held : Text → Value) :
    (∀ key ∈ name :: names,
        OrderedMap.lastOf ((name, value) :: members) key = some (held key)) ↔
      (name ∉ names → value = held name) ∧
        ∀ key ∈ names, OrderedMap.lastOf members key = some (held key) := by
  have later (key : Text) (isKey : key ∈ names) :
      OrderedMap.lastOf ((name, value) :: members) key = OrderedMap.lastOf members key := by
    obtain ⟨last, isLast⟩ :=
      Option.isSome_iff_exists.mp ((lastOf_isSome members key).mpr (named ▸ isKey))
    rw [OrderedMap.lastOf_cons, isLast, Option.some_or]
  have first (absent : name ∉ names) :
      OrderedMap.lastOf ((name, value) :: members) name = some value := by
    have none : OrderedMap.lastOf members name = none := by
      rw [← Option.not_isSome_iff_eq_none, lastOf_isSome, named]
      exact absent
    rw [OrderedMap.lastOf_cons, none, Option.none_or, if_pos rfl]
  constructor
  · intro each
    refine ⟨fun absent => ?_, fun key isKey => ?_⟩
    · have read := each name List.mem_cons_self
      rw [first absent] at read
      exact Option.some.inj read
    · rw [← later key isKey]
      exact each key (List.mem_cons_of_mem _ isKey)
  · rintro ⟨here, rest⟩ key isKey
    by_cases isLater : key ∈ names
    · rw [later key isLater]
      exact rest key isLater
    · obtain rfl : key = name := (List.mem_cons.mp isKey).resolve_right isLater
      rw [first isLater, here isLater]

private theorem givesMembers_cons (child : Field) (rest : List Field) (index : Nat)
    (rows : List Value) :
    GivesMembers nested (child :: rest) index rows ↔
      (∃ column, buildColumnData nested child.type (rows.map (childCell child.name index)) =
          .ok column ∧
        (child.name ∉ rest.map FieldOf.name → ∀ (position : Nat) row,
          rows[position]? = some row → row ≠ .null →
          readCanonicalValue library child.type column position = rowMember row child.name)) ∧
      GivesMembers nested rest (index + 1) rows := by
  obtain ⟨name, type, nullable, metadata⟩ := child
  have split (column : NestedData library) (columns : List (NestedData library)) (position : Nat)
      (row : Value) :=
    lastOf_cons_iff name (readCanonicalValue library type column position)
      (readStruct library rest columns position) (rest.map FieldOf.name)
      (readStruct_names rest columns position) (rowMember row)
  constructor
  · rintro ⟨columns, built, reads⟩
    rw [buildStructData] at built
    obtain ⟨column, made, built⟩ := except_bind_ok _ _ _ built
    obtain ⟨others, madeRest, built⟩ := except_bind_ok _ _ _ built
    cases built
    refine ⟨⟨column, made, fun absent position row here notNull => ?_⟩,
      ⟨others, madeRest, fun position row here notNull => ?_⟩⟩
    · exact ((split column others position row).mp (reads position row here notNull)).1 absent
    · exact ((split column others position row).mp (reads position row here notNull)).2
  · rintro ⟨⟨column, made, first⟩, ⟨others, madeRest, reads⟩⟩
    refine ⟨column :: others, ?_, fun position row here notNull => ?_⟩
    · rw [buildStructData, made, except_ok_bind, madeRest]
      rfl
    · exact (split column others position row).mpr
        ⟨fun absent => first absent position row here notNull, reads position row here notNull⟩

private theorem fills_childCell (name : Text) (index : Nat) (rows : List Value) :
    Fills (rows.map (childCell name index)) (rows.map (rowMember · name)) := by
  refine ⟨by rw [List.length_map, List.length_map], fun position cell here notNull => ?_⟩
  rw [List.getElem?_map, Option.map_eq_some_iff] at here ⊢
  obtain ⟨row, isRow, rfl⟩ := here
  exact ⟨row, isRow, if_neg fun null => notNull ((isCanonicalNull_iff _).mp null)⟩

/-- The rows that are null have null cells in every child. -/
private theorem gives_child_iff (type : DataType) (name : Text) (index : Nat) (rows : List Value) :
    Gives nested type (rows.map (childCell name index)) (rows.map (rowMember · name)) ↔
      ∃ column, buildColumnData nested type (rows.map (childCell name index)) = .ok column ∧
        ∀ (position : Nat) row, rows[position]? = some row → row ≠ .null →
          readCanonicalValue library type column position = rowMember row name := by
  constructor
  · rintro ⟨column, made, reads⟩
    refine ⟨column, made, fun position row here _ => reads position _ ?_⟩
    rw [List.getElem?_map, here, Option.map_some]
  · rintro ⟨column, made, reads⟩
    refine ⟨column, made, fun position cell here => ?_⟩
    rw [List.getElem?_map, Option.map_eq_some_iff] at here
    obtain ⟨row, isRow, rfl⟩ := here
    by_cases null : row = .null
    · subst null
      refine read_null nested type _ column made position ?_
      rw [List.getElem?_map, isRow]
      rfl
    · exact reads position row isRow null

/-- `__proto__` cannot be assigned. -/
private theorem lookup_assigned_proto (members : List (Text × Value)) :
    lookupEntry (assigned members) (text "__proto__") = none := by
  cases found : lookupEntry (assigned members) (text "__proto__") with
  | none => rfl
  | some value =>
      have member := OrderedMap.mem_ofEntries _ _ (mem_of_lookupEntry _ _ value found)
      have other := (List.mem_filter.mp member).2
      exact absurd rfl (of_decide_eq_true other)

theorem assigned_of_absent (members : List (Text × Value)) (names : List Text)
    (named : members.map Prod.fst = names) (absent : text "__proto__" ∉ names) :
    assigned members = objectOf members := by
  have kept : (members.filter fun member => member.1 ≠ text "__proto__") = members := by
    refine List.filter_eq_self.mpr fun member isMember => decide_eq_true fun same => absent ?_
    rw [← named, ← same]
    exact List.mem_map_of_mem isMember
  rw [assigned, kept]

private theorem roundTrips_struct (children : List Field) (cells : List Value)
    (objects : ∀ cell ∈ cells, cell = .null ∨ ∃ held : Text → Value,
      cell = .object (objectOf (children.map fun child => (child.name, held child.name)))) :
    RoundTrips nested (.struct children) cells ↔
      ((∃ row ∈ cells, row ≠ .null) → text "__proto__" ∉ children.map FieldOf.name) ∧
        GivesMembers nested children 0 cells := by
  have object (held : Text → Value) :
      objectOf (children.map fun child => (child.name, held child.name)) =
        objectOf ((children.map FieldOf.name).map fun name => (name, held name)) := by
    rw [List.map_map]
    rfl
  have read_row (columns : List (NestedData library)) (index : Nat) (row : Value)
      (here : cells[index]? = some row) (notNull : row ≠ .null)
      (absent : text "__proto__" ∉ children.map FieldOf.name) :
      readCanonicalValue library (.struct children) (.struct (validity cells) columns) index = row ↔
        ∀ key ∈ children.map FieldOf.name,
          OrderedMap.lastOf (readStruct library children columns index) key =
            some (rowMember row key) := by
    rcases objects row (List.mem_of_getElem? here) with null | ⟨held, rfl⟩
    · exact absurd null notNull
    · have names : (readStruct library children columns index).map Prod.fst =
          children.map FieldOf.name := readStruct_names children columns index
      have filled := objectOf_eq_iff (readStruct library children columns index) _ names held
      rw [readCanonicalValue, if_pos (validity_value cells index _ here notNull),
        assigned_of_absent _ _ names absent, object held, Value.object.injEq, filled]
      refine forall₂_congr fun key isKey => ?_
      rw [rowMember_object _ held key isKey]
  constructor
  · rintro ⟨data, built, reads⟩
    rw [buildColumnData] at built
    obtain ⟨columns, made, built⟩ := except_bind_ok _ _ _ built
    cases built
    have absent : (∃ row ∈ cells, row ≠ .null) →
        text "__proto__" ∉ children.map FieldOf.name := by
      rintro ⟨row, member, notNull⟩ isName
      obtain ⟨index, here⟩ := List.mem_iff_getElem?.mp member
      have read := reads index row here
      rcases objects row member with null | ⟨held, rfl⟩
      · exact notNull null
      · rw [readCanonicalValue, if_pos (validity_value cells index _ here notNull)] at read
        have none := lookup_assigned_proto (readStruct library children columns index)
        rw [Value.object.inj read, object held] at none
        obtain ⟨value, _, found⟩ := lookup_objectOf
          ((children.map FieldOf.name).map fun name => (name, held name)) (text "__proto__")
          (by rwa [List.map_map, show Prod.fst ∘ (fun name => (name, held name)) = id from rfl,
            List.map_id])
        rw [found] at none
        cases none
    exact ⟨absent, columns, made, fun index row here notNull =>
      (read_row columns index row here notNull
        (absent ⟨row, List.mem_of_getElem? here, notNull⟩)).mp (reads index row here)⟩
  · rintro ⟨absent, columns, made, reads⟩
    refine ⟨_, by rw [buildColumnData, made]; rfl, fun index cell here => ?_⟩
    by_cases null : cell = .null
    · subst null
      simp [readCanonicalValue, validity_null cells index here]
    · exact (read_row columns index cell here null
        (absent ⟨cell, List.mem_of_getElem? here, null⟩)).mpr (reads index cell here null)

/-! ## Every type -/

/-- Only nulls are read as null from a column of lists, maps or structs. -/
private theorem read_present (type : DataType) (isNested : type.isLeaf = false)
    (assembled : ∀ id dictionary indices ordered, type ≠ .dictionary id dictionary indices ordered)
    (cells : List Value) (data : NestedData library) (index : Nat) (cell : Value)
    (built : buildColumnData nested type cells = .ok data) (here : cells[index]? = some cell)
    (read : readCanonicalValue library type data index = .null) : cell = .null := by
  by_contra notNull
  have present := validity_value cells index cell here notNull
  cases type with
  | list children =>
      rw [buildColumnData] at built
      obtain ⟨child, _, built⟩ := except_bind_ok _ _ _ built
      cases built
      rw [readCanonicalValue, if_pos present] at read
      cases read
  | fixedSizeList listSize children =>
      rw [buildColumnData] at built
      obtain ⟨slots, _, built⟩ := except_bind_ok _ _ _ built
      obtain ⟨child, _, built⟩ := except_bind_ok _ _ _ built
      cases built
      rw [readCanonicalValue, if_pos present] at read
      cases read
  | map keysSorted children =>
      rw [buildColumnData] at built
      obtain ⟨rows, _, built⟩ := except_bind_ok _ _ _ built
      obtain ⟨entries, _, built⟩ := except_bind_ok _ _ _ built
      cases built
      rw [readCanonicalValue, if_pos present] at read
      cases read
  | struct children =>
      rw [buildColumnData] at built
      obtain ⟨columns, _, built⟩ := except_bind_ok _ _ _ built
      cases built
      rw [readCanonicalValue, if_pos present] at read
      cases read
  | dictionary id dictionary indices ordered => exact assembled _ _ _ _ rfl
  | union mode typeIds children =>
      rw [buildColumnData] at built
      rw [nested.unionNeedsCode mode typeIds children cells data built] at here
      cases here
  | _ => cases isNested

private theorem gives_assembled (type : DataType) (isNested : type.isLeaf = false)
    (assembled : ∀ id dictionary indices ordered, type ≠ .dictionary id dictionary indices ordered)
    (written held : List Value) (fills : Fills written held) (condition : Prop)
    (whole : RoundTrips nested type held ↔ condition) :
    Gives nested type written held ↔ written = held ∧ condition := by
  constructor
  · intro gives
    have same := written_eq nested type written held fills
      (fun data index cell => read_present nested type isNested assembled written data index cell)
      gives
    subst same
    exact ⟨rfl, whole.mp gives⟩
  · rintro ⟨rfl, holds⟩
    exact whole.mpr holds

end

section

variable {library : VectorLibrary} (nested : NestedVectors library)
  (valid : DataType → Value → Prop)

private theorem validItems_array (item : Field) (rest : List Field) (listSize : Option Nat)
    (value : Value) (isValid : ValidItems valid (item :: rest) listSize value) :
    ∃ items, value = .array items ∧ (∀ count, listSize = some count → items.length = count) ∧
      ∀ element ∈ items, ValidCell valid item.type element := by
  obtain ⟨name, type, nullable, metadata⟩ := item
  rwa [ValidItems] at isValid

private theorem validPairs_array (children : List Field) (keyType valueType : DataType)
    (types : mapEntryTypes? children = some (keyType, valueType)) (value : Value)
    (isValid : ValidPairs valid children value) :
    ∃ pairs : List (Value × Value), value = .array (pairs.map pairCell) ∧
      ∀ pair ∈ pairs, ValidCell valid keyType pair.1 ∧ ValidCell valid valueType pair.2 := by
  obtain ⟨_, _, _, _, _, _, _, _, _, _, _, rfl⟩ :=
    mapEntryTypes?_children children keyType valueType types
  rwa [ValidPairs] at isValid

private theorem validMembers_of_mem (children : List Field) (held : Text → Value)
    (isValid : ValidMembers valid children held) (child : Field) (member : child ∈ children) :
    ValidCell valid child.type (held child.name) := by
  induction children with
  | nil => cases member
  | cons first rest ih =>
      obtain ⟨name, type, nullable, metadata⟩ := first
      rw [ValidMembers] at isValid
      cases member with
      | head => exact isValid.1
      | tail _ later => exact ih isValid.2 later

/-- The column of the type gives cells back exactly when the condition holds. -/
def Decides (type : DataType) : Prop :=
  ∀ written held, Fills written held → (∀ cell ∈ held, ValidCell valid type cell) →
    (Gives nested type written held ↔ Restores nested type written held)

private theorem childGives_restores (item : Field) (rest : List Field)
    (decides : Decides nested valid item.type) (items : List Value)
    (isValid : ∀ element ∈ items, ValidCell valid item.type element) :
    ChildGives nested (item :: rest) items item.type ↔
      RestoresItems nested (item :: rest) items := by
  rw [childGives_iff, RoundTrips, decides items items (fills_refl items) isValid]
  obtain ⟨name, type, nullable, metadata⟩ := item
  rw [RestoresItems]

private theorem givesMembers_iff (children : List Field)
    (decides : ∀ child ∈ children, Decides nested valid child.type) (index : Nat)
    (rows : List Value)
    (isValid : ∀ row ∈ rows, ∀ child ∈ children,
      ValidCell valid child.type (rowMember row child.name)) :
    GivesMembers nested children index rows ↔ RestoresMembers nested children index rows := by
  induction children generalizing index with
  | nil =>
      rw [RestoresMembers]
      exact ⟨fun _ => trivial, fun _ => ⟨[], rfl, fun _ _ _ _ => nofun⟩⟩
  | cons child rest ih =>
      have later := ih (fun other member => decides other (List.mem_cons_of_mem _ member))
        (index + 1) fun row isRow other member =>
          isValid row isRow other (List.mem_cons_of_mem _ member)
      have first := decides child List.mem_cons_self _ _ (fills_childCell child.name index rows)
        (fun cell member => by
          obtain ⟨row, isRow, rfl⟩ := List.mem_map.mp member
          exact isValid row isRow child List.mem_cons_self)
      rw [givesMembers_cons, later]
      rw [gives_child_iff] at first
      obtain ⟨name, type, nullable, metadata⟩ := child
      rw [RestoresMembers]
      refine and_congr_left fun _ => ?_
      by_cases repeated : name ∈ rest.map FieldOf.name
      · rw [if_pos repeated]
        exact ⟨fun ⟨column, made, _⟩ => ⟨column, made⟩,
          fun ⟨column, made⟩ => ⟨column, made, fun absent => absurd repeated absent⟩⟩
      · rw [if_neg repeated, ← first]
        exact ⟨fun ⟨column, made, reads⟩ => ⟨column, made, reads repeated⟩,
          fun ⟨column, made, reads⟩ => ⟨column, made, fun _ => reads⟩⟩

private theorem decides_noItem (type : DataType) (isNested : type.isLeaf = false)
    (assembled : ∀ id dictionary indices ordered, type ≠ .dictionary id dictionary indices ordered)
    (refused : ∀ cells data, buildColumnData nested type cells ≠ .ok data)
    (restores : ∀ written held, ¬Restores nested type written held) :
    Decides nested valid type := by
  intro written held fills _
  have whole := gives_assembled nested type isNested assembled written held fills False
    ⟨fun ⟨data, built, _⟩ => refused held data built, False.elim⟩
  rw [whole, and_false]
  exact ⟨False.elim, restores written held⟩

/-- Lists, fixed-size lists and maps of null or filled rows. -/
private theorem decides_list (item : Field) (rest : List Field)
    (decides : Decides nested valid item.type) : Decides nested valid (.list (item :: rest)) := by
  intro written held fills isValid
  have arrays : ∀ cell ∈ held, cell = .null ∨ ∃ items, cell = .array items ∧
      ∀ element ∈ items, ValidCell valid item.type element := by
    intro cell member
    have cellValid := isValid cell member
    rw [ValidCell] at cellValid
    refine cellValid.imp_right fun isList => ?_
    obtain ⟨items, rfl, _, each⟩ := validItems_array valid item rest none cell isList
    exact ⟨items, rfl, each⟩
  have items : ∀ element ∈ held.flatMap itemsOf, ValidCell valid item.type element := by
    intro element member
    obtain ⟨cell, isCell, isItem⟩ := List.mem_flatMap.mp member
    rcases arrays cell isCell with rfl | ⟨items, rfl, each⟩
    · cases isItem
    · exact each element isItem
  have whole := roundTrips_list nested item rest held fun cell member =>
    (arrays cell member).imp_right fun ⟨items, same, _⟩ => ⟨items, same⟩
  rw [gives_assembled nested (.list (item :: rest)) rfl nofun written held fills _ whole,
    childGives_restores nested valid item rest decides _ items, Restores]

private theorem decides_fixedSizeList (listSize : Nat) (item : Field) (rest : List Field)
    (decides : Decides nested valid item.type) :
    Decides nested valid (.fixedSizeList listSize (item :: rest)) := by
  intro written held fills isValid
  have arrays : ∀ cell ∈ held, cell = .null ∨ ∃ items, cell = .array items ∧
      items.length = listSize ∧ ∀ element ∈ items, ValidCell valid item.type element := by
    intro cell member
    have cellValid := isValid cell member
    rw [ValidCell] at cellValid
    refine cellValid.imp_right fun isList => ?_
    obtain ⟨items, rfl, sized, each⟩ := validItems_array valid item rest (some listSize) cell isList
    exact ⟨items, rfl, sized listSize rfl, each⟩
  have slots : ∀ element ∈ held.flatMap (slotItems listSize),
      ValidCell valid item.type element := by
    intro element member
    obtain ⟨cell, isCell, isItem⟩ := List.mem_flatMap.mp member
    rcases arrays cell isCell with rfl | ⟨items, rfl, _, each⟩
    · rw [List.eq_of_mem_replicate isItem]
      exact validCell_null valid item.type
    · exact each element isItem
  have whole := roundTrips_fixedSizeList nested listSize item rest held fun cell member =>
    (arrays cell member).imp_right fun ⟨items, same, sized, _⟩ => ⟨items, same, sized⟩
  rw [gives_assembled nested (.fixedSizeList listSize (item :: rest)) rfl nofun written held fills _
    whole, childGives_restores nested valid item rest decides _ slots, Restores]

private theorem decides_map (keysSorted : Bool) (children : List Field)
    (keyType valueType : DataType) (types : mapEntryTypes? children = some (keyType, valueType))
    (keys : Decides nested valid keyType) (values : Decides nested valid valueType) :
    Decides nested valid (.map keysSorted children) := by
  intro written held fills isValid
  have maps : ∀ cell ∈ held, cell = .null ∨ ∃ pairs : List (Value × Value),
      cell = .array (pairs.map pairCell) ∧
        ∀ pair ∈ pairs, ValidCell valid keyType pair.1 ∧ ValidCell valid valueType pair.2 := by
    intro cell member
    have cellValid := isValid cell member
    rw [ValidCell] at cellValid
    exact cellValid.imp_right (validPairs_array valid children keyType valueType types cell)
  have pairs : ∀ pair ∈ held.flatMap pairList,
      ValidCell valid keyType pair.1 ∧ ValidCell valid valueType pair.2 := by
    intro pair member
    obtain ⟨cell, isCell, isPair⟩ := List.mem_flatMap.mp member
    rcases maps cell isCell with rfl | ⟨pairs, rfl, each⟩
    · cases isPair
    · rw [pairList, pairsOf_pairCells] at isPair
      exact each pair isPair
  have whole := roundTrips_map nested keysSorted children keyType valueType types held
    fun cell member => (maps cell member).imp_right fun ⟨pairs, same, _⟩ => ⟨pairs, same⟩
  have first := keys _ _ (fills_refl ((held.flatMap pairList).map Prod.fst)) fun cell member => by
    obtain ⟨pair, isPair, rfl⟩ := List.mem_map.mp member
    exact (pairs pair isPair).1
  have second := values _ _ (fills_refl ((held.flatMap pairList).map Prod.snd))
    fun cell member => by
      obtain ⟨pair, isPair, rfl⟩ := List.mem_map.mp member
      exact (pairs pair isPair).2
  rw [gives_assembled nested (.map keysSorted children) rfl nofun written held fills _ whole,
    EntriesGive, RoundTrips, RoundTrips, first, second, Restores]
  obtain ⟨_, _, _, _, _, _, _, _, _, _, _, rfl⟩ :=
    mapEntryTypes?_children children keyType valueType types
  rw [RestoresPairs]

private theorem decides_struct (children : List Field)
    (decides : ∀ child ∈ children, Decides nested valid child.type) :
    Decides nested valid (.struct children) := by
  intro written held fills isValid
  have objects : ∀ cell ∈ held, cell = .null ∨ ∃ members : Text → Value,
      ValidMembers valid children members ∧ cell = .object
        (objectOf (children.map fun child => (child.name, members child.name))) := by
    intro cell member
    have cellValid := isValid cell member
    rwa [ValidCell] at cellValid
  have rows : ∀ row ∈ held, ∀ child ∈ children,
      ValidCell valid child.type (rowMember row child.name) := by
    intro row isRow child member
    rcases objects row isRow with rfl | ⟨members, isMembers, rfl⟩
    · exact validCell_null valid child.type
    · have read := rowMember_object (children.map FieldOf.name) members child.name
        (List.mem_map_of_mem member)
      rw [List.map_map] at read
      rw [show (fun child : Field => (child.name, members child.name)) =
        (fun name => (name, members name)) ∘ FieldOf.name from rfl, read]
      exact validMembers_of_mem valid children members isMembers child member
  have whole := roundTrips_struct nested children held fun cell member =>
    (objects cell member).imp_right fun ⟨members, _, same⟩ => ⟨members, same⟩
  rw [gives_assembled nested (.struct children) rfl nofun written held fills _ whole,
    givesMembers_iff nested valid children decides 0 held rows, Restores]

/-- The null type takes anything and gives nulls. -/
private theorem decides_null (leaves : LeafColumns library valid) :
    Decides nested valid .null := by
  intro written held fills isValid
  have nulls : ∀ cell ∈ held, cell = .null := by
    intro cell member
    have cellValid := isValid cell member
    rw [ValidCell] at cellValid
    · obtain ⟨column, _, reads⟩ := leaves.restored .null [cell] rfl
        (List.forall_mem_singleton.mpr cellValid)
      rw [← reads 0 cell rfl]
      unfold readFromData
      split <;> rfl
    all_goals simp
  have written' : ∃ column, writeCanonicalColumn library .null written = .ok column := by
    obtain ⟨vector, made⟩ := library.builds .null written fun cell _ => .inr trivial
    exact ⟨.vector vector, by simp [writeCanonicalColumn, made]⟩
  rw [Restores]
  refine ⟨fun _ => trivial, fun _ => ?_⟩
  obtain ⟨column, made⟩ := written'
  refine ⟨.leaf column, by rw [build_leaf nested .null rfl, made]; rfl, fun index cell here => ?_⟩
  rw [nulls cell (List.mem_of_getElem? here), read_leaf .null rfl]
  unfold readFromData
  split <;> rfl

private theorem decides_leaf (leaves : LeafColumns library valid) (type : DataType)
    (isLeaf : type.isLeaf = true) (notNull : type ≠ .null) : Decides nested valid type := by
  intro written held fills isValid
  have whole : Gives nested type held held := by
    have cells : ∀ cell ∈ held, cell = .null ∨ valid type cell := by
      intro cell member
      have cellValid := isValid cell member
      cases type with
      | _ =>
          first
          | exact absurd isLeaf Bool.false_ne_true
          | simpa [ValidCell] using cellValid
    obtain ⟨column, made, reads⟩ := leaves.restored type held isLeaf cells
    refine ⟨.leaf column, by rw [build_leaf nested type isLeaf, made]; rfl,
      fun index cell here => ?_⟩
    rw [read_leaf type isLeaf]
    exact reads index cell here
  have restores : Restores nested type written held ↔ written = held := by
    cases type with
    | null => exact absurd rfl notNull
    | _ =>
        first
        | exact absurd isLeaf Bool.false_ne_true
        | simp [Restores]
  rw [restores]
  constructor
  · refine written_eq nested type written held fills fun data index cell built here read => ?_
    obtain ⟨column, rfl, made⟩ := leaf_built nested type isLeaf written data built
    rw [read_leaf type isLeaf] at read
    exact leaves.present type written column index cell isLeaf notNull made here read
  · rintro rfl
    exact whole

private theorem decides (leaves : LeafColumns library valid) (type : DataType) :
    Decides nested valid type := by
  induction type using nestedInduction with
  | list item rest ih => exact decides_list nested valid item rest ih
  | emptyList =>
      refine decides_noItem nested valid _ rfl nofun (fun cells data built => ?_)
        fun written held restores => ?_
      · rw [buildColumnData] at built
        obtain ⟨child, made, _⟩ := except_bind_ok _ _ _ built
        cases made
      · rw [Restores] at restores
        exact restores.2
  | fixedSizeList listSize item rest ih =>
      exact decides_fixedSizeList nested valid listSize item rest ih
  | emptyFixedSizeList listSize =>
      refine decides_noItem nested valid _ rfl nofun (fun cells data built => ?_)
        fun written held restores => ?_
      · rw [buildColumnData] at built
        obtain ⟨slots, _, built⟩ := except_bind_ok _ _ _ built
        obtain ⟨child, made, _⟩ := except_bind_ok _ _ _ built
        cases made
      · rw [Restores] at restores
        exact restores.2
  | map keysSorted children keyType valueType types keyIH valueIH =>
      exact decides_map nested valid keysSorted children keyType valueType types keyIH valueIH
  | otherMap keysSorted children noTypes =>
      refine decides_noItem nested valid _ rfl nofun (fun cells data built => ?_)
        fun written held restores => ?_
      · rw [buildColumnData] at built
        obtain ⟨rows, _, built⟩ := except_bind_ok _ _ _ built
        obtain ⟨entries, made, _⟩ := except_bind_ok _ _ _ built
        unfold buildEntries at made
        split at made
        · cases noTypes
        · cases made
      · rw [Restores] at restores
        have held := restores.2
        unfold RestoresPairs at held
        split at held
        · cases noTypes
        · exact held
  | struct children ih => exact decides_struct nested valid children ih
  | union mode typeIds children ih =>
      intro written held fills _
      rw [Restores]
      constructor
      · rintro ⟨data, built, _⟩
        rw [buildColumnData] at built
        exact nested.unionNeedsCode mode typeIds children written data built
      · rintro rfl
        obtain ⟨data, made⟩ := nested.emptyUnion mode typeIds children
        have none : held = [] := List.length_eq_zero_iff.mp fills.lengths.symm
        subst none
        exact ⟨data, by rw [buildColumnData, made], nofun⟩
  | dictionary id dictionary indices ordered ih =>
      intro written held fills _
      rw [Restores, NestedVectors.Keeps, Gives, buildColumnData]
  | leaf type isLeaf =>
      by_cases null : type = .null
      · subst null
        exact decides_null nested valid leaves
      · exact decides_leaf nested valid leaves type isLeaf null

/-- Where the columns of the types without children give their cells back, a column of any type
gives valid cells back exactly when no struct writes another member, or under another name, in
place of one that it reads, no cell reaches a union and the library keeps the dictionaries. -/
theorem nested_round_trip_iff (leaves : LeafColumns library valid) (type : DataType)
    (cells : List Value) (isValid : ∀ cell ∈ cells, ValidCell valid type cell) :
    RoundTrips nested type cells ↔ Restores nested type cells cells :=
  decides nested valid leaves type cells cells (fills_refl cells) isValid

end

/-! ## A library -/

/-- A library whose dictionaries have one key a row. -/
def plainVectors : NestedVectors sampleLibrary where
  vectorFromArray
    | .dictionary _ dictionary _ _, cells =>
        (fun column => .dictionary (validity cells) (List.range cells.length) (.leaf column)) <$>
          writeCanonicalColumn sampleLibrary dictionary cells
    | _, [] => .ok .empty
    | _, _ :: _ => .error (text "Cannot map UnionBuilder value to child typeId.")
  emptyUnion := fun mode typeIds children => ⟨.empty, rfl⟩
  unionNeedsCode := fun mode typeIds children cells data built => by
    cases cells with
    | nil => rfl
    | cons cell rest => cases built
  nullKey := fun id dictionary indices ordered cells data index built here => by
    cases written : writeCanonicalColumn sampleLibrary dictionary cells with
    | error fault =>
        simp only [written] at built
        cases built
    | ok column =>
        simp only [written] at built
        cases built
        simp [readCanonicalValue, validity_null cells index here]

/-- Booleans, and nothing but null of the other types. -/
def OnlyBools (type : DataType) (value : Value) : Prop :=
  type = .bool ∧ ∃ held, value = .bool held

private theorem nulls_written (type : DataType) (cells : List Value)
    (nulls : ∀ cell ∈ cells, cell = .null) :
    ∃ column, writeCanonicalColumn sampleLibrary type cells = .ok column := by
  have bigInts : ∃ column, buildBigIntData sampleLibrary cells = .ok column := by
    have each := except_mapM_eq bigIntCell (fun _ => 0) cells fun cell member => by
      rw [nulls cell member]
      rfl
    exact ⟨_, by rw [buildBigIntData, each]; rfl⟩
  have decimals (byteWidth : Nat) :
      ∃ column, buildDecimalData sampleLibrary cells byteWidth = .ok column := by
    have each := except_mapM_eq (decimalCell byteWidth) (fun _ => List.replicate byteWidth 0) cells
      fun cell member => by
        rw [nulls cell member]
        rfl
    exact ⟨_, by rw [buildDecimalData, each]; rfl⟩
  have vectors (type : DataType) :
      ∃ column, ColumnData.vector <$> sampleLibrary.vectorFromArray type cells = .ok column := by
    obtain ⟨vector, made⟩ := sampleLibrary.builds type cells fun cell member =>
      .inl (nulls cell member)
    exact ⟨.vector vector, by rw [made]; rfl⟩
  unfold writeCanonicalColumn
  split
  · exact decimals _
  · exact ⟨_, rfl⟩
  · exact bigInts
  · split
    · exact bigInts
    · exact ⟨_, rfl⟩
  · exact bigInts
  · exact bigInts
  · split
    · exact bigInts
    · exact vectors _
  · exact vectors _

private theorem sample_present (type : DataType) (cells : List Value)
    (column : ColumnData sampleLibrary) (index : Nat) (cell : Value) (isLeaf : type.isLeaf = true)
    (notNull : type ≠ .null)
    (written : writeCanonicalColumn sampleLibrary type cells = .ok column)
    (here : cells[index]? = some cell)
    (read : readFromData sampleLibrary type column index = .null) : cell = .null := by
  by_contra filled
  have isPresent := isValid_written sampleLibrary type cells column index cell here notNull written
  have notCanonical : isCanonicalNull cell = false :=
    Bool.eq_false_iff.mpr fun null => filled ((isCanonicalNull_iff cell).mp null)
  rw [notCanonical, Bool.not_false] at isPresent
  have vector (made : ColumnData.vector <$> sampleLibrary.vectorFromArray type cells = .ok column) :
      getAt sampleLibrary column index ≠ .null := by
    intro null
    cases built : sampleLibrary.vectorFromArray type cells with
    | error fault =>
        rw [built] at made
        cases made
    | ok vector =>
        rw [built] at made
        cases made
        have kept := sampleLibrary_get type cells vector index cell built here notCanonical
        rw [getAt] at null
        rw [null] at kept
        cases kept
  cases type with
  | bool | binary | largeBinary | fixedSizeBinary byteWidth | interval unit =>
      exact vector written (by simpa [readFromData, isPresent] using read)
  | null => exact notNull rfl
  | int bitWidth signed =>
      simp only [readFromData, isPresent, not_true_eq_false, if_false] at read
      split at read <;> cases read
  | time unit bitWidth =>
      simp only [readFromData, isPresent, not_true_eq_false, if_false] at read
      split at read <;> cases read
  | date unit => cases unit <;> simp [readFromData, isPresent] at read
  | list _ | fixedSizeList _ _ | map _ _ | struct _ | union _ _ _ | dictionary _ _ _ _ =>
      cases isLeaf
  | _ => simp [readFromData, isPresent] at read

/-- The columns of the sample library give booleans back. -/
theorem onlyBools_leafColumns : LeafColumns sampleLibrary OnlyBools where
  restored := fun type cells isLeaf isValid => by
    by_cases bools : type = .bool
    · subst bools
      obtain ⟨vector, made⟩ := sampleLibrary.builds .bool cells fun cell member => by
        rcases isValid cell member with null | ⟨_, held, rfl⟩
        · exact .inl null
        · exact .inr trivial
      have written : writeCanonicalColumn sampleLibrary .bool cells = .ok (.vector vector) := by
        rw [writeCanonicalColumn, made]
        · rfl
        all_goals simp
      refine ⟨.vector vector, written, fun index cell here => ?_⟩
      rcases isValid cell (List.mem_of_getElem? here) with rfl | ⟨_, held, rfl⟩
      · exact reads_null sampleLibrary .bool cells _ index written here
      · have isPresent := isValid_written sampleLibrary .bool cells _ index _ here (by simp) written
        have kept := sampleLibrary.getBool cells vector index held made here
        simp [readFromData, isPresent, isCanonicalNull, getAt, kept]
    · have nulls : ∀ cell ∈ cells, cell = .null := fun cell member =>
        (isValid cell member).resolve_right fun held => bools held.1
      obtain ⟨column, written⟩ := nulls_written type cells nulls
      refine ⟨column, written, fun index cell here => ?_⟩
      obtain rfl := nulls cell (List.mem_of_getElem? here)
      exact reads_null sampleLibrary type cells column index written here
  present := sample_present

/-- A list of structs, some of them null, with a dictionary in each. -/
theorem nested_round_trip_dictionaries :
    let words := DataType.dictionary 0 .bool (.int 32 true) false
    let type := DataType.list
      [⟨text "item", .struct [⟨text "0", words, true, .empty⟩], true, .empty⟩]
    let cells := [Value.array [.object [(text "0", .bool true)], .null], .null, .array []]
    RoundTrips plainVectors type cells := by
  intro words type cells
  have isValid : ∀ cell ∈ cells, ValidCell OnlyBools type cell := by
    have row : ValidCell OnlyBools (.struct [⟨text "0", words, true, .empty⟩])
        (.object [(text "0", .bool true)]) :=
      .inr ⟨fun _ => .bool true, ⟨.inr ⟨rfl, true, rfl⟩, trivial⟩, rfl⟩
    refine List.forall_mem_cons.mpr ⟨.inr ⟨_, rfl, nofun, ?_⟩,
      List.forall_mem_cons.mpr ⟨.inl rfl, List.forall_mem_singleton.mpr ?_⟩⟩
    · exact List.forall_mem_cons.mpr ⟨row, List.forall_mem_singleton.mpr (.inl rfl)⟩
    · exact .inr ⟨[], rfl, nofun, nofun⟩
  refine (nested_round_trip_iff plainVectors OnlyBools onlyBools_leafColumns type cells
    isValid).mpr ⟨rfl, .inr ⟨rfl, fun _ => by decide, ?_, trivial⟩⟩
  refine ⟨_, rfl, fun index cell here => ?_⟩
  match index with
  | 0 =>
      cases here
      rfl
  | 1 =>
      cases here
      rfl
  | _ + 2 => cases here

/-- A null member `x` comes back as the member `1`, whose name is the place of `x`. -/
theorem null_replaced_by_numeric_name :
    let type := DataType.struct [⟨text "1", .bool, true, .empty⟩, ⟨text "x", .bool, true, .empty⟩]
    let cells := [Value.object [(text "1", .bool true), (text "x", .null)]]
    LeafColumns sampleLibrary OnlyBools ∧ (∀ cell ∈ cells, ValidCell OnlyBools type cell) ∧
      ∃ data, buildColumnData plainVectors type cells = .ok data ∧
        readCanonicalValue sampleLibrary type data 0 =
          .object [(text "1", .bool true), (text "x", .bool true)] ∧
        ¬RoundTrips plainVectors type cells := by
  intro type cells
  refine ⟨onlyBools_leafColumns, List.forall_mem_singleton.mpr (.inr ⟨fun name =>
    if name = text "1" then .bool true else .null, ?_, rfl⟩), _, rfl, rfl, ?_⟩
  · exact ⟨.inr ⟨rfl, true, rfl⟩, .inl rfl, trivial⟩
  · rintro ⟨data, built, reads⟩
    cases built
    cases reads 0 _ rfl

end VgiWorker.Arrow.Nested
