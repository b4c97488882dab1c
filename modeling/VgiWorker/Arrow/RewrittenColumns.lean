import VgiWorker.Arrow.CodecInverse
import VgiWorker.Arrow.NestedRoundTrip

/-!
# Columns written anew

What a column built of canonical cells is read as, at every depth, and when the cells
of a column can be read as rich values and written into a new one.
-/

set_option autoImplicit false

namespace VgiWorker.Arrow.Nested

open VgiWorker.Js

mutual

/-- A type that this backend writes from canonical cells alone: there is no interval, dictionary or
union in it, and the children of a struct have distinct names, which are neither places nor
`__proto__`. -/
def Rewritable : DataType → Prop
  | .interval _ | .dictionary _ _ _ _ | .union _ _ _ => False
  | .list children | .fixedSizeList _ children => children ≠ [] ∧ AllRewritable children
  | .map _ children => (mapEntryTypes? children).isSome ∧ AllRewritable children
  | .struct children =>
      (children.map FieldOf.name).Nodup ∧ text "__proto__" ∉ children.map FieldOf.name ∧
        (∀ place, Number.decimal place ∉ children.map FieldOf.name) ∧ AllRewritable children
  | type => type.IsScalar

def AllRewritable : List (FieldOf DataType) → Prop
  | [] => True
  | ⟨_, type, _, _⟩ :: rest => Rewritable type ∧ AllRewritable rest

end

private theorem rewritable_of_mem (fields : List Field) (all : AllRewritable fields)
    (field : Field) (member : field ∈ fields) : Rewritable field.type := by
  induction fields with
  | nil => cases member
  | cons first rest ih =>
      obtain ⟨name, type, nullable, metadata⟩ := first
      rw [AllRewritable] at all
      cases member with
      | head => exact all.1
      | tail _ member => exact ih all.2 member

private theorem rewritable_entries (children : List Field) (keyType valueType : DataType)
    (types : mapEntryTypes? children = some (keyType, valueType)) (all : AllRewritable children) :
    Rewritable keyType ∧ Rewritable valueType := by
  obtain ⟨_, _, _, _, _, _, _, _, _, _, _, rfl⟩ :=
    mapEntryTypes?_children children keyType valueType types
  rw [AllRewritable, Rewritable, AllRewritable, AllRewritable] at all
  exact ⟨all.1.2.2.2.1, all.1.2.2.2.2.1⟩

private theorem scalar_of_rewritable (type : DataType) (isLeaf : type.isLeaf = true)
    (rewritable : Rewritable type) : type.IsScalar ∧ ∀ unit, type ≠ .interval unit := by
  cases type with
  | interval unit =>
      rw [Rewritable] at rewritable
      exact rewritable.elim
  | _ =>
      first
      | exact absurd isLeaf Bool.false_ne_true
      | exact ⟨by simpa [Rewritable] using rewritable, by simp⟩

mutual

theorem alike_of_rewritable : ∀ type : DataType, Rewritable type → SameNamedAlike type
  | .list children, rewritable | .fixedSizeList _ children, rewritable
  | .map _ children, rewritable => by
      rw [Rewritable] at rewritable
      exact allAlike_of_rewritable children rewritable.2
  | .struct children, rewritable => by
      rw [Rewritable] at rewritable
      refine ⟨fun left isLeft right isRight same => ?_,
        allAlike_of_rewritable children rewritable.2.2.2⟩
      rw [List.inj_on_of_nodup_map rewritable.1 isLeft isRight same]
  | .interval _, rewritable | .dictionary _ _ _ _, rewritable | .union _ _ _, rewritable => by
      rw [Rewritable] at rewritable
      exact rewritable.elim
  | .null, _ | .int _ _, _ | .float _, _ | .binary, _ | .utf8, _ | .bool, _ | .decimal _ _ _, _
  | .date _, _ | .time _ _, _ | .timestamp _ _, _ | .fixedSizeBinary _, _ | .duration _, _
  | .largeBinary, _ | .largeUtf8, _ => trivial

theorem allAlike_of_rewritable : ∀ fields : List Field, AllRewritable fields → AllAlike fields
  | [], _ => trivial
  | ⟨_, type, _, _⟩ :: rest, all => by
      rw [AllRewritable] at all
      exact ⟨alike_of_rewritable type all.1, allAlike_of_rewritable rest all.2⟩

end

theorem canonicalOf_null (type : DataType) (rewritable : Rewritable type) :
    CanonicalOf type .null := by
  cases type with
  | list children | fixedSizeList listSize children =>
      rw [Rewritable] at rewritable
      cases children with
      | nil => exact absurd rfl rewritable.1
      | cons item rest => exact Or.inl rfl
  | map keysSorted children =>
      rw [Rewritable] at rewritable
      obtain ⟨pair, types⟩ := Option.isSome_iff_exists.mp rewritable.1
      obtain ⟨_, _, _, _, _, _, _, _, _, _, _, rfl⟩ :=
        mapEntryTypes?_children children pair.1 pair.2 types
      exact Or.inl rfl
  | interval _ | dictionary _ _ _ _ | union _ _ _ =>
      rw [Rewritable] at rewritable
      exact rewritable.elim
  | _ => exact Or.inl rfl

/-! ## What a column holds -/

section

variable (library : VectorLibrary)

/-- What a column without children holds of a canonical value: text as UTF-8 has it, a float
rounded and a half float by its bits, the integers of a 64-bit array and decimals wrapped. -/
def heldLeaf : DataType → Value → Value
  | .utf8, .string value | .largeUtf8, .string value => .string (dropBom (toWellFormed value))
  | .float .half, .number value => .number (Number.ofNat (library.halfBits value))
  | .float precision, .number value => .number (library.round precision value)
  | .decimal bitWidth _ _, .bigint value => .bigint (wrapInt bitWidth true value)
  | .date .millisecond, .bigint value | .time _ _, .bigint value | .timestamp _ _, .bigint value
  | .duration _, .bigint value => .bigint (wrapInt 64 true value)
  | _, value => value

mutual

/-- What a column holds of a canonical value, at every depth. -/
def heldCell : DataType → Value → Value
  | .list children, value => heldItems children value
  | .fixedSizeList _ children, value => heldItems children value
  | .map _ children, value => heldPairs children value
  | .struct children, .object members => .object (heldMembers children members)
  | type, value => heldLeaf library type value

def heldItems : List (FieldOf DataType) → Value → Value
  | ⟨_, type, _, _⟩ :: _, .array items => .array (items.map (heldCell type))
  | _, value => value

def heldPairs : List (FieldOf DataType) → Value → Value
  | ⟨_, .struct (⟨_, keyType, _, _⟩ :: ⟨_, valueType, _, _⟩ :: _), _, _⟩ :: _, .array items =>
      .array ((pairList (.array items)).map fun pair =>
        pairCell (heldCell keyType pair.1, heldCell valueType pair.2))
  | _, value => value

def heldMembers : List (FieldOf DataType) → List (Text × Value) → List (Text × Value)
  | [], _ => []
  | ⟨name, type, _, _⟩ :: rest, members =>
      (name, heldCell type (cellMember members name)) :: heldMembers rest members

end

example : heldCell library (.list []) .null = .null := by simp [heldCell, heldItems]

theorem heldCell_null (type : DataType) : heldCell library type .null = .null := by
  cases type with
  | list children | fixedSizeList listSize children =>
      rw [heldCell]
      cases children <;> simp [heldItems]
  | map keysSorted children =>
      rw [heldCell]
      unfold heldPairs
      split
      · rename_i same
        cases same
      · rfl
  | _ => simp [heldCell, heldLeaf]

private theorem heldCell_leaf (type : DataType) (isLeaf : type.isLeaf = true) (cell : Value) :
    heldCell library type cell = heldLeaf library type cell := by
  cases type with
  | _ =>
      first
      | exact absurd isLeaf Bool.false_ne_true
      | simp [heldCell]

theorem heldMembers_eq (children : List Field) (members : List (Text × Value)) :
    heldMembers library children members = children.map fun child =>
      (child.name, heldCell library child.type (cellMember members child.name)) := by
  induction children with
  | nil => rfl
  | cons child rest ih =>
      obtain ⟨name, type, nullable, metadata⟩ := child
      rw [heldMembers, ih]
      rfl

/-! ## Columns without children -/

private theorem bigInts_written (cells : List Value)
    (integers : ∀ cell ∈ cells, cell = .null ∨ ∃ held, cell = .bigint held) :
    ∃ column, buildBigIntData library cells = .ok column := by
  obtain ⟨buf, made⟩ := except_mapM_exists bigIntCell cells fun cell member => by
    rcases integers cell member with rfl | ⟨held, rfl⟩
    · exact ⟨_, rfl⟩
    · exact ⟨_, rfl⟩
  exact ⟨_, by rw [buildBigIntData, made]; rfl⟩

private theorem vector_written (type : DataType) (cells : List Value)
    (taken : ∀ cell ∈ cells, cell = .null ∨ Buildable library.intervals type cell) :
    ∃ column, ColumnData.vector <$> library.vectorFromArray type cells = .ok column := by
  obtain ⟨vector, made⟩ := library.builds type cells taken
  exact ⟨.vector vector, by rw [made]; rfl⟩

/-- The writer takes every canonical value of a type without children. -/
private theorem leaf_written (type : DataType) (isLeaf : type.isLeaf = true)
    (notInterval : ∀ unit, type ≠ .interval unit) (cells : List Value)
    (canonical : ∀ cell ∈ cells, cell = .null ∨ CanonicalLeaf type cell) :
    ∃ column, writeCanonicalColumn library type cells = .ok column := by
  have integers (each : ∀ cell, CanonicalLeaf type cell → ∃ held, cell = .bigint held) :=
    bigInts_written library cells fun cell member => (canonical cell member).imp_right (each cell)
  have taken (each : ∀ cell, CanonicalLeaf type cell → Buildable library.intervals type cell) :=
    vector_written library type cells fun cell member =>
      (canonical cell member).imp_right (each cell)
  cases type with
  | null => exact taken fun cell held => held.elim
  | bool =>
      refine taken fun cell held => ?_
      obtain ⟨value, rfl⟩ := held
      trivial
  | int bitWidth signed =>
      by_cases wide : bitWidth = 64
      · subst wide
        refine integers fun cell held => ?_
        obtain ⟨value, rfl, _⟩ := held
        exact ⟨value, rfl⟩
      · simp only [writeCanonicalColumn, if_neg wide]
        refine taken fun cell held => ?_
        obtain ⟨value, rfl, _⟩ := held
        rw [if_neg wide]
        trivial
  | float precision =>
      refine taken fun cell held => ?_
      obtain ⟨value, rfl⟩ := held
      trivial
  | utf8 | largeUtf8 | binary | largeBinary =>
      refine taken fun cell held => ?_
      obtain ⟨value, rfl⟩ := held
      trivial
  | fixedSizeBinary byteWidth =>
      refine taken fun cell held => ?_
      obtain ⟨value, rfl, length⟩ := held
      exact length
  | decimal bitWidth precision scale =>
      obtain ⟨chunks, made⟩ := except_mapM_exists (decimalCell (bitWidth / 8)) cells
        fun cell member => by
          rcases canonical cell member with rfl | ⟨value, rfl⟩
          · exact ⟨_, rfl⟩
          · exact ⟨_, rfl⟩
      exact ⟨_, by rw [writeCanonicalColumn, buildDecimalData, made]; rfl⟩
  | date unit =>
      cases unit with
      | day => exact ⟨_, rfl⟩
      | millisecond => exact integers fun cell held => held
  | time unit bitWidth =>
      by_cases wide : bitWidth = 64
      · subst wide
        refine integers fun cell held => ?_
        obtain ⟨value, rfl, _⟩ := held
        exact ⟨value, rfl⟩
      · simp only [writeCanonicalColumn, if_neg wide]
        exact ⟨_, rfl⟩
  | timestamp unit timezone => exact integers fun cell held => held
  | duration unit => exact integers fun cell held => held
  | interval unit => exact absurd rfl (notInterval unit)
  | _ => cases isLeaf

/-- A column without children reads a canonical value as what it holds of it. -/
private theorem reads_held (type : DataType) (isLeaf : type.isLeaf = true)
    (scalar : type.IsScalar) (notInterval : ∀ unit, type ≠ .interval unit) (cell : Value)
    (canonical : CanonicalLeaf type cell) :
    Reads library type cell (heldLeaf library type cell) := by
  cases type with
  | null => exact canonical.elim
  | bool =>
      obtain ⟨value, rfl⟩ := canonical
      refine reads_vector library .bool ⟨(by simp), fun _ => rfl⟩ _ _ (by simp) ?_
      intro cells vector index made here valid
      have kept := library.getBool cells vector index value made here
      simp [readFromData, isValid, valid, getAt, kept, heldLeaf]
  | int bitWidth signed =>
      obtain ⟨value, rfl, inside⟩ := canonical
      have whole := wrapInt_intRange bitWidth signed value scalar inside
      by_cases wide : bitWidth = 64
      · subst wide
        have reads := reads_bigInt library _ signed (inBigInt_int library signed) (.bigint value)
          value (by simp) rfl
        rw [whole] at reads
        exact reads
      · rw [if_neg wide]
        refine reads_vector library _ (inVector_int library bitWidth signed wide) _ _ (by simp) ?_
        intro cells vector index made here valid
        have small : value.natAbs ≤ Number.maxSafeInteger :=
          intRange_small bitWidth signed wide value inside.1 inside.2
        have kept := library.intValues bitWidth signed cells vector index _ value
          (by unfold DataType.IsScalar at scalar; omega) made here (toInt?_ofInt_safe value small).1
        rw [whole] at kept
        simp [readFromData, isValid, valid, wide, numberAt, kept, heldLeaf]
  | float precision =>
      obtain ⟨value, rfl⟩ := canonical
      refine reads_vector library (.float precision) ⟨(by simp), fun _ => rfl⟩ _ _ (by simp) ?_
      intro cells vector index made here valid
      by_cases half : precision = .half
      · subst half
        have kept := library.halfValues cells vector index value made here
        simp [readFromData, isValid, valid, numberAt, kept, heldLeaf]
      · have kept := library.floatValues precision cells vector index value half made here
        simp [readFromData, isValid, valid, numberAt, kept, heldLeaf]
  | utf8 =>
      obtain ⟨value, rfl⟩ := canonical
      refine reads_vector library .utf8 ⟨(by simp), fun _ => rfl⟩ _ _ (by simp) ?_
      intro cells vector index made here valid
      have kept := library.getText .utf8 cells vector index value (.inl rfl) made here
      simp [readFromData, isValid, valid, getAt, kept, heldLeaf, Value.toText]
  | largeUtf8 =>
      obtain ⟨value, rfl⟩ := canonical
      refine reads_vector library .largeUtf8 ⟨(by simp), fun _ => rfl⟩ _ _ (by simp) ?_
      intro cells vector index made here valid
      have kept := library.getText .largeUtf8 cells vector index value (.inr rfl) made here
      simp [readFromData, isValid, valid, getAt, kept, heldLeaf, Value.toText]
  | binary =>
      obtain ⟨value, rfl⟩ := canonical
      refine reads_vector library .binary ⟨(by simp), fun _ => rfl⟩ _ _ (by simp) ?_
      intro cells vector index made here valid
      have kept := library.getBytes .binary cells vector index value (.inl rfl) made here
      simp [readFromData, isValid, valid, getAt, kept, heldLeaf]
  | largeBinary =>
      obtain ⟨value, rfl⟩ := canonical
      refine reads_vector library .largeBinary ⟨(by simp), fun _ => rfl⟩ _ _ (by simp) ?_
      intro cells vector index made here valid
      have kept := library.getBytes .largeBinary cells vector index value (.inr (.inl rfl)) made
        here
      simp [readFromData, isValid, valid, getAt, kept, heldLeaf]
  | fixedSizeBinary byteWidth =>
      obtain ⟨value, rfl, rfl⟩ := canonical
      refine reads_vector library _ ⟨(by simp), fun _ => rfl⟩ _ _ (by simp) ?_
      intro cells vector index made here valid
      have kept := library.getBytes _ cells vector index value (.inr (.inr rfl)) made here
      simp [readFromData, isValid, valid, getAt, kept, heldLeaf]
  | decimal bitWidth precision scale =>
      obtain ⟨value, rfl⟩ := canonical
      exact reads_decimal library bitWidth precision scale scalar value
  | date unit =>
      cases unit with
      | day =>
          obtain ⟨value, rfl, inside⟩ := canonical
          have reads := reads_int32 library _ (inInt32_date library) (Number.ofInt value) value
            (toInt?_ofInt_safe value (inSigned_small value inside)).1
          rw [(wrapInt_signed_iff 32 (by decide) value).mpr inside] at reads
          exact reads
      | millisecond =>
          obtain ⟨value, rfl⟩ := canonical
          exact reads_bigInt library _ true (inBigInt_date library) _ value (by simp) rfl
  | time unit bitWidth =>
      obtain ⟨value, rfl, inside⟩ := canonical
      by_cases wide : bitWidth = 64
      · subst wide
        exact reads_bigInt library _ true (inBigInt_time library unit) _ value (by simp) rfl
      · rw [if_neg wide]
        have inside := inside wide
        have reads := reads_int32 library _ (inInt32_time library unit bitWidth wide)
          (Number.ofInt value) value (toInt?_ofInt_safe value (inSigned_small value inside)).1
        rw [(wrapInt_signed_iff 32 (by decide) value).mpr inside] at reads
        exact reads
  | timestamp unit timezone =>
      obtain ⟨value, rfl⟩ := canonical
      exact reads_bigInt library _ true (inBigInt_timestamp library unit timezone) _ value
        (by simp) rfl
  | duration unit =>
      obtain ⟨value, rfl⟩ := canonical
      exact reads_bigInt library _ true (inBigInt_duration library unit) _ value (by simp) rfl
  | interval unit => exact absurd rfl (notInterval unit)
  | _ => cases isLeaf

end

section

variable {library : VectorLibrary} (nested : NestedVectors library)

/-- A column of canonical cells of the type can be made, and is read as what it holds of each. -/
def GivesHeld (type : DataType) : Prop :=
  ∀ cells, (∀ cell ∈ cells, CanonicalOf type cell) →
    ∃ data, buildColumnData nested type cells = .ok data ∧
      ∀ (index : Nat) cell, cells[index]? = some cell →
        readCanonicalValue library type data index = heldCell library type cell

private theorem givesHeld_leaf (type : DataType) (isLeaf : type.isLeaf = true)
    (rewritable : Rewritable type) : GivesHeld nested type := by
  intro cells canonical
  obtain ⟨scalar, notInterval⟩ := scalar_of_rewritable type isLeaf rewritable
  have either : ∀ cell ∈ cells, cell = .null ∨ CanonicalLeaf type cell := fun cell member =>
    (canonical_leaf type isLeaf cell (canonical cell member)).imp_right And.right
  obtain ⟨column, written⟩ := leaf_written library type isLeaf notInterval cells either
  refine ⟨.leaf column, by rw [build_leaf nested type isLeaf, written]; rfl,
    fun index cell here => ?_⟩
  rw [read_leaf type isLeaf]
  rcases either cell (List.mem_of_getElem? here) with rfl | held
  · rw [heldCell_null]
    exact reads_null library type cells column index written here
  · rw [heldCell_leaf library type isLeaf]
    exact reads_held library type isLeaf scalar notInterval cell held cells column index written
      here

/-! ## Columns of lists -/

private theorem items_givesHeld (item : Field) (rest : List Field)
    (child : GivesHeld nested item.type) (items : List Value)
    (canonical : ∀ member ∈ items, CanonicalOf item.type member) :
    ∃ data, buildItems nested (item :: rest) items = .ok data ∧
      ∀ (position : Nat) member, items[position]? = some member →
        readCanonicalValue library item.type data position =
          heldCell library item.type member := by
  obtain ⟨name, type, nullable, metadata⟩ := item
  cases items with
  | nil => exact ⟨.empty, by simp [buildItems], by simp⟩
  | cons first others =>
      obtain ⟨data, built, reads⟩ := child (first :: others) canonical
      exact ⟨data, by rw [buildItems, if_neg (by simp), built], reads⟩

private theorem givesHeld_list (item : Field) (rest : List Field)
    (child : GivesHeld nested item.type) : GivesHeld nested (.list (item :: rest)) := by
  intro cells canonical
  have arrays : ∀ cell ∈ cells, cell = .null ∨ ∃ items, cell = .array items ∧
      ∀ member ∈ items, CanonicalOf item.type member := by
    intro cell member
    rcases canonical cell member with null | ⟨items, same, _, each⟩
    · exact .inl null
    · exact .inr ⟨items, same, each⟩
  have canonicalItems : ∀ member ∈ cells.flatMap itemsOf, CanonicalOf item.type member := by
    intro member isItem
    obtain ⟨cell, isCell, isItem⟩ := List.mem_flatMap.mp isItem
    rcases arrays cell isCell with rfl | ⟨items, rfl, each⟩
    · cases isItem
    · exact each member isItem
  obtain ⟨data, built, reads⟩ := items_givesHeld nested item rest child _ canonicalItems
  refine ⟨_, by rw [buildColumnData, built]; rfl, fun index cell here => ?_⟩
  rcases arrays cell (List.mem_of_getElem? here) with rfl | ⟨items, rfl, _⟩
  · rw [heldCell_null]
    simp [readCanonicalValue, validity_null cells index here]
  · obtain ⟨name, type, nullable, metadata⟩ := item
    rw [readCanonicalValue, if_pos (validity_value cells index _ here (by simp)), heldCell,
      heldItems]
    exact congrArg Value.array
      (Data.readRow_map itemsOf _ (heldCell library type) cells reads index _ here)

private theorem givesHeld_fixedSizeList (listSize : Nat) (item : Field) (rest : List Field)
    (rewritable : Rewritable item.type) (child : GivesHeld nested item.type) :
    GivesHeld nested (.fixedSizeList listSize (item :: rest)) := by
  intro cells canonical
  have arrays : ∀ cell ∈ cells, cell = .null ∨ ∃ items, cell = .array items ∧
      items.length = listSize ∧ ∀ member ∈ items, CanonicalOf item.type member := by
    intro cell member
    rcases canonical cell member with null | ⟨items, same, length, each⟩
    · exact .inl null
    · exact .inr ⟨items, same, length listSize rfl, each⟩
  have sized : ∀ cell ∈ cells, cell = .null ∨ ∃ items, cell = .array items ∧
      items.length = listSize := by
    intro cell member
    rcases arrays cell member with null | ⟨items, same, length, _⟩
    · exact .inl null
    · exact .inr ⟨items, same, length⟩
  have canonicalSlots : ∀ member ∈ cells.flatMap (slotItems listSize),
      CanonicalOf item.type member := by
    intro member isSlot
    obtain ⟨cell, isCell, isSlot⟩ := List.mem_flatMap.mp isSlot
    rcases arrays cell isCell with rfl | ⟨items, rfl, _, each⟩
    · obtain rfl := List.eq_of_mem_replicate isSlot
      exact canonicalOf_null item.type rewritable
    · exact each member isSlot
  obtain ⟨data, built, reads⟩ := items_givesHeld nested item rest child _ canonicalSlots
  refine ⟨_, by rw [buildColumnData, allSlots_eq listSize cells 0 sized, except_ok_bind, built]; rfl,
    fun index cell here => ?_⟩
  rcases arrays cell (List.mem_of_getElem? here) with rfl | ⟨items, rfl, _⟩
  · rw [heldCell_null]
    simp [readCanonicalValue, validity_null cells index here]
  · have inside := (List.getElem?_eq_some_iff.mp here).1
    obtain ⟨name, type, nullable, metadata⟩ := item
    rw [readCanonicalValue, if_pos (validity_value cells index _ here (by simp)), heldCell,
      heldItems, readList, readList_fixed listSize cells sized _ index inside]
    exact congrArg Value.array
      (Data.readRow_map (slotItems listSize) _ (heldCell library type) cells reads index _ here)

/-! ## Columns of maps -/

private theorem entries_givesHeld (children : List Field) (keyType valueType : DataType)
    (types : mapEntryTypes? children = some (keyType, valueType))
    (keyColumn : GivesHeld nested keyType) (valueColumn : GivesHeld nested valueType)
    (pairs : List (Value × Value))
    (canonical : ∀ pair ∈ pairs, CanonicalOf keyType pair.1 ∧ CanonicalOf valueType pair.2) :
    ∃ entries, buildEntries nested children pairs = .ok entries ∧
      ∀ (position : Nat) pair, pairs[position]? = some pair →
        (readCanonicalValue library keyType entries.1 position,
          readCanonicalValue library valueType entries.2 position) =
            (heldCell library keyType pair.1, heldCell library valueType pair.2) := by
  obtain ⟨_, _, _, _, _, _, _, _, _, _, _, rfl⟩ :=
    mapEntryTypes?_children children keyType valueType types
  cases pairs with
  | nil => exact ⟨(.empty, .empty), by simp [buildEntries], by simp⟩
  | cons first others =>
      obtain ⟨keys, builtKeys, readsKeys⟩ := keyColumn ((first :: others).map Prod.fst)
        fun key member => by
          obtain ⟨pair, isPair, rfl⟩ := List.mem_map.mp member
          exact (canonical pair isPair).1
      obtain ⟨values, builtValues, readsValues⟩ := valueColumn ((first :: others).map Prod.snd)
        fun value member => by
          obtain ⟨pair, isPair, rfl⟩ := List.mem_map.mp member
          exact (canonical pair isPair).2
      refine ⟨(keys, values), ?_, fun position pair here => ?_⟩
      · rw [buildEntries, if_neg (by simp), builtKeys, except_ok_bind, builtValues, except_ok_bind]
      · rw [readsKeys position pair.1 (by rw [List.getElem?_map, here]; rfl),
          readsValues position pair.2 (by rw [List.getElem?_map, here]; rfl)]

private theorem heldPairs_eq (children : List Field) (keyType valueType : DataType)
    (types : mapEntryTypes? children = some (keyType, valueType))
    (pairs : List (Value × Value)) :
    heldPairs library children (.array (pairs.map pairCell)) =
      .array (pairs.map fun pair =>
        pairCell (heldCell library keyType pair.1, heldCell library valueType pair.2)) := by
  obtain ⟨_, _, _, _, _, _, _, _, _, _, _, rfl⟩ :=
    mapEntryTypes?_children children keyType valueType types
  rw [heldPairs, pairList, pairsOf_pairCells]

private theorem givesHeld_map (keysSorted : Bool) (children : List Field)
    (keyType valueType : DataType) (types : mapEntryTypes? children = some (keyType, valueType))
    (keyColumn : GivesHeld nested keyType) (valueColumn : GivesHeld nested valueType) :
    GivesHeld nested (.map keysSorted children) := by
  intro cells canonical
  have maps : ∀ cell ∈ cells, cell = .null ∨ ∃ pairs : List (Value × Value),
      cell = .array (pairs.map pairCell) ∧
        ∀ pair ∈ pairs, CanonicalOf keyType pair.1 ∧ CanonicalOf valueType pair.2 := by
    intro cell member
    have held := canonical cell member
    rw [CanonicalOf] at held
    obtain ⟨_, _, _, _, _, _, _, _, _, _, _, rfl⟩ :=
      mapEntryTypes?_children children keyType valueType types
    exact held
  have pairs : cells.mapM pairsOf = .ok (cells.map pairList) := by
    refine except_mapM_eq pairsOf pairList cells fun cell member => ?_
    rcases maps cell member with rfl | ⟨pairs, rfl, _⟩
    · rfl
    · rw [pairList, pairsOf_pairCells]
  have canonicalPairs : ∀ pair ∈ cells.flatMap pairList,
      CanonicalOf keyType pair.1 ∧ CanonicalOf valueType pair.2 := by
    intro pair isPair
    obtain ⟨cell, isCell, isPair⟩ := List.mem_flatMap.mp isPair
    rcases maps cell isCell with rfl | ⟨pairs, rfl, each⟩
    · cases isPair
    · rw [pairList, pairsOf_pairCells] at isPair
      exact each pair isPair
  obtain ⟨entries, built, reads⟩ := entries_givesHeld nested children keyType valueType types
    keyColumn valueColumn _ canonicalPairs
  refine ⟨_, by rw [buildColumnData, pairs, except_ok_bind, Data.rowOffsets_map,
    ← List.flatMap_def, built]; rfl, fun index cell here => ?_⟩
  rcases maps cell (List.mem_of_getElem? here) with rfl | ⟨held, rfl, _⟩
  · rw [heldCell_null]
    simp [readCanonicalValue, validity_null cells index here]
  · rw [readCanonicalValue, if_pos (validity_value cells index _ here (by simp)),
      readMap_eq children keyType valueType types, heldCell,
      heldPairs_eq children keyType valueType types]
    have row := Data.readRow_map pairList _ (fun pair =>
      (heldCell library keyType pair.1, heldCell library valueType pair.2)) cells reads index _ here
    rw [pairList, pairsOf_pairCells] at row
    refine congrArg Value.array ((congrArg (List.map pairCell) row).trans ?_)
    rw [List.map_map]
    rfl

/-! ## Columns of structs -/

/-- A row of a struct whose members the children's columns can take. -/
def RowCanonical (children : List Field) (row : Value) : Prop :=
  row = .null ∨ ∃ members, row = .object members ∧
    (∀ place, lookupEntry members (Number.decimal place) = none) ∧
    ∀ child ∈ children, CanonicalOf child.type (cellMember members child.name)

private theorem childCell_object (members : List (Text × Value))
    (unplaced : ∀ place, lookupEntry members (Number.decimal place) = none) (name : Text)
    (index : Nat) : childCell name index (.object members) = cellMember members name := by
  unfold childCell
  split
  · rename_i null
    rw [rowMember, unplaced, Option.getD_none]
    rw [rowMember] at null
    exact ((isCanonicalNull_iff _).mp null).symm
  · rfl

private theorem members_givesHeld (children : List Field)
    (rewritable : ∀ child ∈ children, Rewritable child.type)
    (columns : ∀ child ∈ children, GivesHeld nested child.type) (index : Nat) (rows : List Value)
    (canonical : ∀ row ∈ rows, RowCanonical children row) :
    ∃ built, buildStructData nested children index rows = .ok built ∧
      ∀ (row : Nat) members, rows[row]? = some (.object members) →
        readStruct library children built row = heldMembers library children members := by
  induction children generalizing index with
  | nil => exact ⟨[], rfl, fun row members here => rfl⟩
  | cons child rest ih =>
      have cells : ∀ cell ∈ rows.map (childCell child.name index), CanonicalOf child.type cell := by
        intro cell member
        obtain ⟨row, isRow, rfl⟩ := List.mem_map.mp member
        rcases canonical row isRow with rfl | ⟨members, rfl, unplaced, each⟩
        · exact canonicalOf_null child.type (rewritable child List.mem_cons_self)
        · rw [childCell_object members unplaced]
          exact each child List.mem_cons_self
      obtain ⟨first, builtFirst, readsFirst⟩ := columns child List.mem_cons_self _ cells
      obtain ⟨others, builtOthers, readsOthers⟩ := ih
        (fun other member => rewritable other (List.mem_cons_of_mem _ member))
        (fun other member => columns other (List.mem_cons_of_mem _ member)) (index + 1)
        fun row isRow => (canonical row isRow).imp_right fun ⟨members, same, unplaced, each⟩ =>
          ⟨members, same, unplaced, fun other member => each other (List.mem_cons_of_mem _ member)⟩
      obtain ⟨name, type, nullable, metadata⟩ := child
      refine ⟨first :: others, by rw [buildStructData, builtFirst, except_ok_bind, builtOthers,
        except_ok_bind], fun row members here => ?_⟩
      rcases canonical _ (List.mem_of_getElem? here) with absent | ⟨_, same, unplaced, _⟩
      · cases absent
      · cases same
        rw [readStruct, heldMembers, readsOthers row members here,
          readsFirst row (cellMember members name) (by
            rw [List.getElem?_map, here, Option.map_some, childCell_object members unplaced])]

private theorem givesHeld_struct (children : List Field) (rewritable : Rewritable (.struct children))
    (columns : ∀ child ∈ children, GivesHeld nested child.type) :
    GivesHeld nested (.struct children) := by
  intro cells canonical
  have alike := alike_of_rewritable _ rewritable
  rw [SameNamedAlike] at alike
  rw [Rewritable] at rewritable
  obtain ⟨distinct, plain, unplaced, all⟩ := rewritable
  have rows : ∀ row ∈ cells, RowCanonical children row := by
    intro row member
    have held := canonical row member
    rw [CanonicalOf] at held
    rcases held with null | ⟨members, isMembers, rfl⟩
    · exact .inl null
    · have names := canonicalMembers_names children members isMembers
      refine .inr ⟨_, rfl, fun place => ?_, (canonical_struct children alike.1 members isMembers).1⟩
      rw [objectOf, OrderedMap.entries_ofEntries members (names ▸ distinct)]
      cases found : lookupEntry members (Number.decimal place) with
      | none => rfl
      | some value =>
          have isName := List.mem_map_of_mem (f := Prod.fst) (mem_of_lookupEntry _ _ value found)
          rw [names] at isName
          exact absurd isName (unplaced place)
  obtain ⟨built, made, reads⟩ := members_givesHeld nested children
    (fun child member => rewritable_of_mem children all child member) columns 0 cells rows
  refine ⟨_, by rw [buildColumnData, made]; rfl, fun index cell here => ?_⟩
  rcases rows cell (List.mem_of_getElem? here) with rfl | ⟨members, rfl, _⟩
  · rw [heldCell_null]
    simp [readCanonicalValue, validity_null cells index here]
  · rw [readCanonicalValue, if_pos (validity_value cells index _ here (by simp)),
      reads index members here, heldCell]
    have names : (heldMembers library children members).map Prod.fst =
        children.map FieldOf.name := by
      rw [heldMembers_eq, List.map_map]
      rfl
    rw [assigned_of_absent _ _ names plain, objectOf,
      OrderedMap.entries_ofEntries _ (names ▸ distinct)]

/-! ## Columns of every type -/

theorem givesHeld (type : DataType) (rewritable : Rewritable type) : GivesHeld nested type := by
  induction type using nestedInduction with
  | list item rest ih =>
      rw [Rewritable] at rewritable
      exact givesHeld_list nested item rest
        (ih (rewritable_of_mem _ rewritable.2 item List.mem_cons_self))
  | emptyList =>
      rw [Rewritable] at rewritable
      exact absurd rfl rewritable.1
  | fixedSizeList listSize item rest ih =>
      rw [Rewritable] at rewritable
      have itemRewritable := rewritable_of_mem _ rewritable.2 item List.mem_cons_self
      exact givesHeld_fixedSizeList nested listSize item rest itemRewritable (ih itemRewritable)
  | emptyFixedSizeList listSize =>
      rw [Rewritable] at rewritable
      exact absurd rfl rewritable.1
  | map keysSorted children keyType valueType types keyIH valueIH =>
      rw [Rewritable] at rewritable
      obtain ⟨keys, values⟩ := rewritable_entries children keyType valueType types rewritable.2
      exact givesHeld_map nested keysSorted children keyType valueType types (keyIH keys)
        (valueIH values)
  | otherMap keysSorted children noTypes =>
      rw [Rewritable, noTypes] at rewritable
      exact absurd rewritable.1 (by simp)
  | struct children ih =>
      have all := rewritable
      rw [Rewritable] at all
      exact givesHeld_struct nested children rewritable fun child member =>
        ih child member (rewritable_of_mem children all.2.2.2 child member)
  | union mode typeIds children ih =>
      rw [Rewritable] at rewritable
      exact rewritable.elim
  | dictionary id dictionary indices ordered ih =>
      rw [Rewritable] at rewritable
      exact rewritable.elim
  | leaf type isLeaf => exact givesHeld_leaf nested type isLeaf rewritable

end

/-! ## What is held is canonical -/

section

variable (library : VectorLibrary)

private theorem heldLeaf_canonical (type : DataType) (cell : Value)
    (canonical : CanonicalLeaf type cell) : CanonicalLeaf type (heldLeaf library type cell) := by
  cases type with
  | float precision =>
      obtain ⟨value, rfl⟩ := canonical
      cases precision <;> exact ⟨_, rfl⟩
  | utf8 | largeUtf8 | decimal _ _ _ | timestamp _ _ | duration _ =>
      obtain ⟨value, rfl⟩ := canonical
      exact ⟨_, rfl⟩
  | date unit =>
      cases unit with
      | day => simpa [heldLeaf] using canonical
      | millisecond =>
          obtain ⟨value, rfl⟩ := canonical
          exact ⟨_, rfl⟩
  | time unit bitWidth =>
      obtain ⟨value, rfl, inside⟩ := canonical
      by_cases wide : bitWidth = 64
      · rw [if_pos wide]
        exact ⟨wrapInt 64 true value, by rw [if_pos wide]; rfl, fun narrow => absurd wide narrow⟩
      · rw [if_neg wide]
        exact ⟨value, by rw [if_neg wide]; rfl, inside⟩
  | _ => simpa [heldLeaf] using canonical

private theorem items_canonical (item : Field) (rest : List Field) (listSize : Option Nat)
    (cell : Value)
    (each : ∀ member, CanonicalOf item.type member →
      CanonicalOf item.type (heldCell library item.type member))
    (canonical : CanonicalItems (item :: rest) listSize cell) :
    CanonicalItems (item :: rest) listSize (heldItems library (item :: rest) cell) := by
  obtain ⟨name, type, nullable, metadata⟩ := item
  rcases canonical with rfl | ⟨items, rfl, length, members⟩
  · exact .inl (by simp [heldItems])
  · refine .inr ⟨items.map (heldCell library type), by rw [heldItems], fun count sized => ?_,
      fun member isMember => ?_⟩
    · rw [List.length_map]
      exact length count sized
    · obtain ⟨inner, isInner, rfl⟩ := List.mem_map.mp isMember
      exact each inner (members inner isInner)

private theorem canonicalMembers_of_each (children : List Field) (held : Field → Value)
    (each : ∀ child ∈ children, CanonicalOf child.type (held child)) :
    CanonicalMembers children (children.map fun child => (child.name, held child)) := by
  induction children with
  | nil => rfl
  | cons child rest ih =>
      have first := each child List.mem_cons_self
      have others := ih fun other member => each other (List.mem_cons_of_mem _ member)
      obtain ⟨name, type, nullable, metadata⟩ := child
      exact ⟨_, _, rfl, first, others⟩

theorem heldCell_canonical (type : DataType) (rewritable : Rewritable type) (cell : Value)
    (canonical : CanonicalOf type cell) : CanonicalOf type (heldCell library type cell) := by
  induction type using nestedInduction generalizing cell with
  | list item rest ih =>
      rw [Rewritable] at rewritable
      rw [CanonicalOf] at canonical
      rw [CanonicalOf, heldCell]
      exact items_canonical library item rest none cell
        (ih (rewritable_of_mem _ rewritable.2 item List.mem_cons_self)) canonical
  | emptyList => exact canonical.elim
  | fixedSizeList listSize item rest ih =>
      rw [Rewritable] at rewritable
      rw [CanonicalOf] at canonical
      rw [CanonicalOf, heldCell]
      exact items_canonical library item rest (some listSize) cell
        (ih (rewritable_of_mem _ rewritable.2 item List.mem_cons_self)) canonical
  | emptyFixedSizeList listSize => exact canonical.elim
  | map keysSorted children keyType valueType types keyIH valueIH =>
      rw [Rewritable] at rewritable
      obtain ⟨keys, values⟩ := rewritable_entries children keyType valueType types rewritable.2
      have pairsHeld := @heldPairs_eq library children keyType valueType types
      rw [CanonicalOf] at canonical
      rw [CanonicalOf, heldCell]
      obtain ⟨_, _, _, _, _, _, _, _, _, _, _, rfl⟩ :=
        mapEntryTypes?_children children keyType valueType types
      rcases canonical with rfl | ⟨pairs, rfl, each⟩
      · exact .inl (by simp [heldPairs])
      · refine .inr ⟨pairs.map fun pair =>
          (heldCell library keyType pair.1, heldCell library valueType pair.2),
          (pairsHeld pairs).trans ?_, fun pair isPair => ?_⟩
        · rw [List.map_map]
          rfl
        · obtain ⟨inner, isInner, rfl⟩ := List.mem_map.mp isPair
          exact ⟨keyIH keys inner.1 (each inner isInner).1,
            valueIH values inner.2 (each inner isInner).2⟩
  | otherMap keysSorted children noTypes =>
      rw [Rewritable, noTypes] at rewritable
      exact absurd rewritable.1 (by simp)
  | struct children ih =>
      have alike := alike_of_rewritable _ rewritable
      rw [SameNamedAlike] at alike
      rw [Rewritable] at rewritable
      obtain ⟨distinct, _, _, all⟩ := rewritable
      rw [CanonicalOf] at canonical
      rcases canonical with rfl | ⟨members, isMembers, rfl⟩
      · rw [heldCell_null]
        exact .inl rfl
      · have each := (canonical_struct children alike.1 members isMembers).1
        have made := heldMembers_eq library children (objectOf members)
        refine .inr ⟨_, canonicalMembers_of_each children (fun child =>
          heldCell library child.type (cellMember (objectOf members) child.name))
          fun child member => ih child member (rewritable_of_mem children all child member) _
            (each child member), ?_⟩
        rw [heldCell, made]
        refine congrArg Value.object (OrderedMap.entries_ofEntries _ ?_).symm
        rw [List.map_map]
        exact distinct
  | union mode typeIds children ih =>
      rw [Rewritable] at rewritable
      exact rewritable.elim
  | dictionary id dictionary indices ordered ih =>
      rw [Rewritable] at rewritable
      exact rewritable.elim
  | leaf type isLeaf =>
      rcases canonical_leaf type isLeaf cell canonical with rfl | ⟨_, held⟩
      · rw [heldCell_null]
        exact canonical
      · rw [heldCell_leaf library type isLeaf]
        have either : CanonicalOf type (heldLeaf library type cell) ↔
            heldLeaf library type cell = .null ∨
              CanonicalLeaf type (heldLeaf library type cell) := by
          cases type with
          | _ =>
              first
              | exact absurd isLeaf Bool.false_ne_true
              | exact Iff.rfl
        exact either.mpr (.inr (heldLeaf_canonical library type cell held))

end

/-! ## Rich values in between -/

section

variable {library : VectorLibrary} (nested : NestedVectors library) (dateText : Number → Text)

/-- The canonical cells of a column have rich values exactly where their dates fit. -/
theorem cells_convert_iff (type : DataType) (alike : SameNamedAlike type) (cells : List Value)
    (canonical : ∀ cell ∈ cells, CanonicalOf type cell) :
    (∃ values, cells.mapM (canonicalToRich dateText type) = .ok values) ↔
      ∀ cell ∈ cells, DatesFit type cell := by
  constructor
  · rintro ⟨values, converted⟩ cell member
    obtain ⟨index, here⟩ := List.mem_iff_getElem?.mp member
    obtain ⟨rich, _, converts⟩ := except_mapM_getElem? _ _ _ converted index cell here
    exact (comesBack dateText type alike cell (canonical cell member)).fits rich converts
  · intro fit
    exact except_mapM_exists _ cells fun cell member =>
      (comesBack dateText type alike cell (canonical cell member)).accepted (fit cell member)

/-- A column built of the rich values of canonical cells has what it holds of each. -/
theorem columnCells_canonical (type : DataType) (rewritable : Rewritable type) (cells : List Value)
    (canonical : ∀ cell ∈ cells, CanonicalOf type cell) (values : List Rich)
    (converted : cells.mapM (canonicalToRich dateText type) = .ok values) :
    columnCells nested dateText type values = .ok (cells.map (heldCell library type)) := by
  have back : values.mapM (richToCanonical dateText type) = .ok cells :=
    except_mapM_back _ _ cells values converted fun cell member rich converts =>
      (comesBack dateText type (alike_of_rewritable type rewritable) cell
        (canonical cell member)).back rich converts
  have length := ((except_mapM_iff _ _ _).mp converted).length_eq
  obtain ⟨data, built, reads⟩ := givesHeld nested type rewritable cells canonical
  rw [columnCells, back, (except_mapError_ok codecMessage _ cells).mpr rfl, except_ok_bind, built, except_ok_bind, ← length]
  refine congrArg Except.ok (List.ext_getElem? fun index => ?_)
  rw [List.getElem?_map, List.getElem?_map]
  by_cases inside : index < cells.length
  · rw [List.getElem?_range inside, List.getElem?_eq_getElem inside, Option.map_some,
      Option.map_some, reads index _ (List.getElem?_eq_getElem inside)]
  · rw [List.getElem?_eq_none (by simpa using inside), List.getElem?_eq_none (by simpa using inside)]
    rfl

/-- The batch of some columns has a column of cells for each field, and the rows of the first. -/
theorem batchFromColumns_iff (columns : List (Text × List Rich)) (schema : Schema)
    (values : Field → List Rich)
    (found : ∀ field ∈ schema.fields, lookupEntry columns field.name = some (values field))
    (batch : Batch) :
    batchFromColumns nested dateText columns schema = .ok batch ↔
      ∃ children, List.Forall₂ (fun field column =>
          columnCells nested dateText field.type (values field) = .ok column)
          schema.fields children ∧
        batch = ⟨schema, children,
          (schema.fields.head?.map fun field => (values field).length).getD 0, none⟩ := by
  have numRows : ((schema.fields.head?.bind fun field => lookupEntry columns field.name).map
      List.length).getD 0 =
        (schema.fields.head?.map fun field => (values field).length).getD 0 := by
    cases fields : schema.fields with
    | nil => rfl
    | cons field rest =>
        have first := found field (by rw [fields]; exact List.mem_cons_self)
        rw [List.head?_cons, Option.bind_some, first]
        rfl
  unfold batchFromColumns
  dsimp only
  rw [numRows, except_mapM_congr _ (fun field =>
    columnCells nested dateText field.type (values field)) schema.fields fun field member => by
      rw [found field member]]
  constructor
  · intro made
    obtain ⟨children, built, same⟩ := except_bind_ok _ _ _ made
    cases same
    exact ⟨children, (except_mapM_iff _ _ _).mp built, rfl⟩
  · rintro ⟨children, built, rfl⟩
    rw [(except_mapM_iff _ _ _).mpr built, except_ok_bind]

end

/-- A batch that holds, in columns of distinct names, canonical cells of types that can be
rewritten. -/
structure HoldsCanonical (batch : Batch) : Prop where
  distinct : (batch.schema.fields.map FieldOf.name).Nodup
  columns : List.Forall₂ (fun field column => Rewritable field.type ∧
    column.length = batch.numRows ∧ ∀ cell ∈ column, CanonicalOf field.type cell)
      batch.schema.fields batch.columns

end VgiWorker.Arrow.Nested
