import VgiWorker.Arrow.CanonicalColumn
import VgiWorker.Arrow.CanonicalValues
import VgiWorker.Data.Segments

/-!
# Columns of every nested type

The builders and the readers of the arrow-js backend. Lists, maps and structs
are assembled here; dictionaries and unions come whole from the library.
-/

set_option autoImplicit false

namespace VgiWorker.Arrow.Nested

open VgiWorker.Js

/-- The `Data` of a column. -/
inductive NestedData (library : VectorLibrary) where
  | leaf (column : ColumnData library)
  | list (valid : List Bool) (valueOffsets : List Nat) (child : NestedData library)
  | fixedSizeList (valid : List Bool) (child : NestedData library)
  | map (valid : List Bool) (valueOffsets : List Nat) (keys values : NestedData library)
  | struct (valid : List Bool) (children : List (NestedData library))
  | union (valid : List Bool) (typeIds : List Int) (valueOffsets : Option (List Nat))
      (children : List (NestedData library))
  | dictionary (valid : List Bool) (values : List Nat) (dictionary : NestedData library)
  /-- `emptyDataForType`. -/
  | empty

/-! ## Rows as the builders take them apart -/

/-- The items that a row adds to the child column. -/
def itemsOf : Value → List Value
  | .array elements => elements
  | .bytes value => value.map fun byte => .number (Number.ofNat byte.toNat)
  | .string value => (iterated value).map .string
  | _ => []

/-- `elements[key]`. -/
def elementAt (elements : List Value) (key : Text) : Value :=
  if key = text "length" then .number (Number.ofNat elements.length)
  else (((List.range elements.length).find? fun index => Number.decimal index = key).bind
    fun index => elements[index]?).getD .null

/-- `row[key] ?? null`. -/
def rowMember : Value → Text → Value
  | .object members, key => (lookupEntry members key).getD .null
  | .array elements, key => elementAt elements key
  | .bytes value, key => elementAt (value.map fun byte => .number (Number.ofNat byte.toNat)) key
  | .string value, key => elementAt (value.map fun unit => .string [unit]) key
  | _, _ => .null

/-- `row[name] ?? row[c] ?? null`, which is null for a null row. -/
def childCell (name : Text) (index : Nat) (row : Value) : Value :=
  if isCanonicalNull (rowMember row name) then rowMember row (Number.decimal index)
  else rowMember row name

/-- The slots that a row of a fixed-size list takes in the child. -/
def slotsOf (listSize index : Nat) (row : Value) : Except Text (List Value) :=
  if isCanonicalNull row then .ok (List.replicate listSize .null)
  else if (itemsOf row).length ≠ listSize then
    .error (text "fixed_size_list[" ++ Number.decimal listSize ++ text "]: row " ++
      Number.decimal index ++ text " has " ++ Number.decimal (itemsOf row).length ++ text " items")
  else .ok (itemsOf row)

def allSlots (listSize : Nat) : Nat → List Value → Except Text (List Value)
  | _, [] => .ok []
  | index, row :: rest => do
      let slots ← slotsOf listSize index row
      let others ← allSlots listSize (index + 1) rest
      .ok (slots ++ others)

/-- `const [key, value] = pair`. -/
def pairOf (pair : Value) : Except Text (Value × Value) :=
  match pair with
  | .array _ | .string _ | .bytes _ =>
      .ok ((itemsOf pair)[0]?.getD .null, (itemsOf pair)[1]?.getD .null)
  | _ => .error (text "undefined is not a function")

/-- The pairs of a map: an array of them, or the entries of an object. -/
def pairsOf : Value → Except Text (List (Value × Value))
  | .object members => .ok (members.map fun member => (.string member.1, member.2))
  | row => (itemsOf row).mapM pairOf

def noType {α : Type} : Except Text α :=
  .error (text "Cannot read properties of undefined (reading 'type')")

/-! ## Reading -/

def pairCell (pair : Value × Value) : Value :=
  .array [pair.1, pair.2]

def taggedUnion (tag value : Value) : Value :=
  .object [(text "tag", tag), (text "value", value)]

/-- The object that these members are assigned to in turn; assigning `__proto__` adds none. -/
def assigned (members : List (Text × Value)) : List (Text × Value) :=
  objectOf (members.filter fun member => member.1 ≠ text "__proto__")

/-- `typeIdToChildIndex[code]`; the last of two equal codes counts. -/
def typeIdToChildIndex (typeIds : List Int) (code : Int) : Option Nat :=
  (List.range typeIds.length).reverse.find? fun index => typeIds[index]? = some code

/-- The child that a type code stands for: the code itself where the type does not map it. -/
def childIndex (typeIds : List Int) (code : Int) : Option Nat :=
  match typeIdToChildIndex typeIds code with
  | some index => some index
  | none => if code < 0 then none else some code.toNat

section

variable (library : VectorLibrary)

mutual

def readCanonicalValue : DataType → NestedData library → Nat → Value
  | .list children, .list valid valueOffsets child, index =>
      if valid[index]?.getD false then
        .array (readList children child (valueOffsets[index]?.getD 0)
          (valueOffsets[index + 1]?.getD 0))
      else .null
  | .fixedSizeList listSize children, .fixedSizeList valid child, index =>
      if valid[index]?.getD false then
        .array (readList children child (index * listSize) (index * listSize + listSize))
      else .null
  | .map _ children, .map valid valueOffsets keys values, index =>
      if valid[index]?.getD false then
        .array (readMap children keys values (valueOffsets[index]?.getD 0)
          (valueOffsets[index + 1]?.getD 0))
      else .null
  | .struct children, .struct valid columns, index =>
      if valid[index]?.getD false then .object (assigned (readStruct children columns index))
      else .null
  | .union _ typeIds children, .union valid codes valueOffsets columns, index =>
      if valid[index]?.getD false then
        match childIndex typeIds (codes[index]?.getD 0) with
        | none => taggedUnion .null .null
        | some child =>
            -- Dense unions remap the row, sparse ones read the child at the same row.
            readUnion children columns child (match valueOffsets with
              | some offsets => offsets[index]?.getD 0
              | none => index)
      else .null
  | .dictionary _ dictionary _ _, .dictionary valid values held, index =>
      if valid[index]?.getD false then
        readCanonicalValue dictionary held (values[index]?.getD 0)
      else .null
  | type, .leaf column, index => readFromData library type column index
  | _, _, _ => .null

def readList : List (FieldOf DataType) → NestedData library → Nat → Nat → List Value
  | [], _, _, _ => []
  | ⟨_, type, _, _⟩ :: _, child, start, finish =>
      Data.readBetween (readCanonicalValue type child) start finish

def readMap : List (FieldOf DataType) → NestedData library → NestedData library → Nat → Nat →
    List Value
  | ⟨_, .struct (⟨_, keyType, _, _⟩ :: ⟨_, valueType, _, _⟩ :: _), _, _⟩ :: _, keys, values,
      start, finish =>
      (Data.readBetween (fun position => (readCanonicalValue keyType keys position,
        readCanonicalValue valueType values position)) start finish).map pairCell
  | _, _, _, _, _ => []

def readStruct : List (FieldOf DataType) → List (NestedData library) → Nat → List (Text × Value)
  | [], _, _ => []
  | ⟨name, _, _, _⟩ :: rest, [], index => (name, .null) :: readStruct rest [] index
  | ⟨name, type, _, _⟩ :: rest, child :: children, index =>
      (name, readCanonicalValue type child index) :: readStruct rest children index

/-- The member of a union at a position, with its name as the tag. -/
def readUnion : List (FieldOf DataType) → List (NestedData library) → Nat → Nat → Value
  | [], _, _, _ => taggedUnion .null .null
  | ⟨name, _, _, _⟩ :: _, [], 0, _ => taggedUnion (.string name) .null
  | ⟨name, type, _, _⟩ :: _, child :: _, 0, row =>
      taggedUnion (.string name) (readCanonicalValue type child row)
  | _ :: rest, children, position + 1, row => readUnion rest children.tail position row

end

/-- `vectorFromArray` for the types with children that the library builds itself. A union cell
needs a type code with it, which no caller gives; a null cell of a dictionary has no key. -/
structure NestedVectors where
  vectorFromArray : DataType → List Value → Except Text (NestedData library)
  emptyUnion : ∀ mode typeIds children, ∃ data,
    vectorFromArray (.union mode typeIds children) [] = .ok data
  unionNeedsCode : ∀ mode typeIds children cells data,
    vectorFromArray (.union mode typeIds children) cells = .ok data → cells = []
  nullKey : ∀ id dictionary indices ordered cells data (index : Nat),
    vectorFromArray (.dictionary id dictionary indices ordered) cells = .ok data →
    cells[index]? = some .null →
    readCanonicalValue library (.dictionary id dictionary indices ordered) data index = .null

/-! ## Building -/

variable {library} (nested : NestedVectors library)

mutual

def buildColumnData : DataType → List Value → Except Text (NestedData library)
  | .list children, cells => do
      let child ← buildItems children (cells.flatMap itemsOf)
      .ok (.list (validity cells) (Data.rowOffsets (fun row => (itemsOf row).length) 0 cells) child)
  | .fixedSizeList listSize children, cells => do
      let slots ← allSlots listSize 0 cells
      let child ← buildItems children slots
      .ok (.fixedSizeList (validity cells) child)
  | .map _ children, cells => do
      let rows ← cells.mapM pairsOf
      let entries ← buildEntries children rows.flatten
      .ok (.map (validity cells) (Data.rowOffsets List.length 0 rows) entries.1 entries.2)
  | .struct children, cells => do
      let columns ← buildStructData children 0 cells
      .ok (.struct (validity cells) columns)
  | .dictionary id dictionary indices ordered, cells =>
      nested.vectorFromArray (.dictionary id dictionary indices ordered) cells
  | .union mode typeIds children, cells =>
      nested.vectorFromArray (.union mode typeIds children) cells
  | type, cells => NestedData.leaf <$> writeCanonicalColumn library type cells

/-- The child of a list that has these items. -/
def buildItems : List (FieldOf DataType) → List Value → Except Text (NestedData library)
  | [], _ => noType
  | ⟨_, type, _, _⟩ :: _, items =>
      if items.isEmpty then .ok .empty else buildColumnData type items

/-- The children of the entries of a map. -/
def buildEntries : List (FieldOf DataType) → List (Value × Value) →
    Except Text (NestedData library × NestedData library)
  | ⟨_, .struct (⟨_, keyType, _, _⟩ :: ⟨_, valueType, _, _⟩ :: _), _, _⟩ :: _, pairs =>
      if pairs.isEmpty then .ok (.empty, .empty)
      else do
        let keys ← buildColumnData keyType (pairs.map Prod.fst)
        let values ← buildColumnData valueType (pairs.map Prod.snd)
        .ok (keys, values)
  | _, _ => noType

def buildStructData : List (FieldOf DataType) → Nat → List Value →
    Except Text (List (NestedData library))
  | [], _, _ => .ok []
  | ⟨name, type, _, _⟩ :: rest, index, rows => do
      let first ← buildColumnData type (rows.map (childCell name index))
      let others ← buildStructData rest (index + 1) rows
      .ok (first :: others)

end

end

/-! ## A batch of columns -/

section

variable {library : VectorLibrary} (nested : NestedVectors library) (dateText : Number → Text)

/-- The cells of a column that is built from rich values and read back. -/
def columnCells (type : DataType) (values : List Rich) : Except Text Column := do
  let canonical ← (values.mapM (richToCanonical dateText type)).mapError codecMessage
  let data ← buildColumnData nested type canonical
  .ok ((List.range values.length).map (readCanonicalValue library type data))

def batchFromColumns (columns : List (Text × List Rich)) (schema : Schema) :
    Except Text Batch := do
  let numRows := ((schema.fields.head?.bind fun field => lookupEntry columns field.name).map
    List.length).getD 0
  let children ← schema.fields.mapM fun field =>
    match lookupEntry columns field.name with
    | none => .ok (List.replicate numRows .null)
    | some values => columnCells nested dateText field.type values
  .ok { schema, columns := children, numRows, metadata := none }

end

end VgiWorker.Arrow.Nested
