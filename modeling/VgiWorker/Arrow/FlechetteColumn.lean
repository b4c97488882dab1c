import VgiWorker.Arrow.CanonicalColumn
import VgiWorker.Data.Parts

/-!
# Columns of the flechette backend

A column is a list of the library's `Batch` objects, one a record batch; a
child of a nested batch is such an object itself. Structs and unions are read
from the buffers, and every other type through the library's `at`.
-/

set_option autoImplicit false

namespace VgiWorker.Arrow.Flechette

open VgiWorker.Js

/-- The type codes of a union's rows; in a dense union also where each row lies in its member. -/
structure UnionRows where
  typeIds : List Int
  offsets : Option (List Nat)
  aligned : ∀ rows, offsets = some rows → rows.length = typeIds.length

/-- A `Batch` of the library; `cellAt` is its `at`. -/
structure Chunk where
  length : Nat
  nullCount : Nat
  validity : Option Bytes
  children : Option (List Chunk)
  unionRows : Option UnionRows
  cellAt : Nat → Value

/-- What a canonical read is given for a column: a `Column`, the node of a child, or nothing. -/
inductive Source where
  | column (data : List Chunk)
  | child (data : Chunk)
  | missing

/-! ## The library's column -/

def lengths (data : List Chunk) : List Nat :=
  data.map Chunk.length

def numRows (data : List Chunk) : Nat :=
  (lengths data).sum

/-- The batch that holds a row of the column, and the row's index there. -/
def owner (data : List Chunk) (index : Nat) : Option (Chunk × Nat) :=
  (Data.locate (lengths data) index).bind fun found =>
    data[found.1]?.map fun chunk => (chunk, found.2)

/-- `Column#at`, which goes straight to the only batch of a column that has one. -/
def columnAt (data : List Chunk) (index : Nat) : Value :=
  match data with
  | [chunk] => chunk.cellAt index
  | _ =>
      match owner data index with
      | some (chunk, row) => chunk.cellAt row
      | none => .null

def bitAt (bitmap : Bytes) (index : Nat) : Bool :=
  (bitmap[index / 8]?.getD 0).toNat.testBit (index % 8)

/-! ## Validity -/

def batchIsValid (batch : Option Chunk) (index : Nat) : Bool :=
  match batch with
  | none => false
  | some chunk =>
      match chunk.validity with
      | none => true
      | some bitmap =>
          if chunk.nullCount = 0 ∨ bitmap = [] then true else bitAt bitmap index

def columnIsValid (data : List Chunk) (index : Nat) : Bool :=
  match data with
  | [chunk] => batchIsValid (some chunk) index
  | _ =>
      let offsets := Data.partialSums (lengths data)
      let lo := Data.bisect (fun mid => decide (offsets[mid + 1]?.any (· ≤ index))) 0 data.length
      batchIsValid data[lo]? (index - offsets[lo]?.getD 0)

/-! ## Values that `at` gives -/

/-- `Math.round(number)`. -/
def mathRound (number : Number) : Number :=
  match number with
  | .finite value => Number.ofRat number.isNegative (value.val + 1 / 2).floor
  | _ => number

/-- `Array.from(value)`. -/
def arrayFrom : Value → List Value
  | .array elements => elements
  | .bytes value => value.map fun byte => .number (Number.ofNat byte.toNat)
  | .string value => (iterated value).map .string
  | _ => []

/-- `obj[name] ?? null`. -/
def memberOf (value : Value) (name : Text) : Value :=
  match value with
  | .object entries => (lookupEntry entries name).getD .null
  | _ => .null

/-- The pairs of a map: an array of them, or the entries of an object. -/
def pairsOf : Value → List (Value × Value)
  | .array elements => elements.map fun element =>
      ((arrayFrom element)[0]?.getD .null, (arrayFrom element)[1]?.getD .null)
  | .object entries => entries.map fun entry => (.string entry.1, entry.2)
  | _ => []

/-- A `bigint` time as a number. -/
def timeOf : Value → Value
  | .bigint value => .number (Number.ofInt value)
  | value => value

def noChildren {α : Type} (property : String) : Except Text α :=
  .error (text "Cannot read properties of undefined (reading '" ++ text property ++ text "')")

mutual

def canonicalize : DataType → Value → Except Text Value
  | _, .null => .ok .null
  | .date .day, value => .ok (.number (mathRound (value.toNumber.div (Number.ofInt msPerDay))))
  | .date .millisecond, value => Value.bigint <$> bigIntOf (timeOf value)
  | .struct children, value => do
      let members ← canonicalizeMembers children value
      .ok (.object (OrderedMap.ofEntries members).entries)
  | .list children, value | .fixedSizeList _ children, value => canonicalizeItems children value
  | .map _ children, value => canonicalizePairs children value
  | .dictionary _ dictionary _ _, value => canonicalize dictionary value
  | _, value => .ok value

def canonicalizeMembers : List (FieldOf DataType) → Value → Except Text (List (Text × Value))
  | [], _ => .ok []
  | ⟨name, type, _, _⟩ :: rest, value => do
      let first ← canonicalize type (memberOf value name)
      let others ← canonicalizeMembers rest value
      .ok ((name, first) :: others)

def canonicalizeItems : List (FieldOf DataType) → Value → Except Text Value
  | [], _ => noChildren "type"
  | ⟨_, type, _, _⟩ :: _, value => do
      let items ← (arrayFrom value).mapM (canonicalize type)
      .ok (.array items)

def canonicalizePairs : List (FieldOf DataType) → Value → Except Text Value
  | ⟨_, .struct (⟨_, keyType, _, _⟩ :: ⟨_, valueType, _, _⟩ :: _), _, _⟩ :: _, value => do
      let pairs ← (pairsOf value).mapM fun pair => do
        let key ← canonicalize keyType pair.1
        let held ← canonicalize valueType pair.2
        .ok (Value.array [key, held])
      .ok (.array pairs)
  | [], _ => noChildren "type"
  | ⟨_, type, _, _⟩ :: _, _ => noChildren (if type.children?.isSome then "type" else "0")

end

/-! ## Reading a column -/

def Source.readAt : Source → Nat → Value
  | .column data, index => columnAt data index
  | .child data, index => data.cellAt index
  | .missing, _ => .null

/-- `childData(column)`. -/
def childData : Source → Option Chunk
  | .column data => data.head?
  | .child data => if data.children.isSome then some data else none
  | .missing => none

def isNullAt (data : Option Chunk) (index : Nat) : Bool :=
  match data with
  | none => false
  | some chunk =>
      if chunk.nullCount = 0 then false
      else
        match chunk.validity with
        | none => false
        | some bitmap => if bitmap = [] then false else !bitAt bitmap index

def childSource (nodes : List Chunk) (index : Nat) : Source :=
  match nodes[index]? with
  | some node => .child node
  | none => .missing

/-- A union cell as a `TaggedUnion`. -/
def taggedUnion (tag value : Value) : Value :=
  .object [(text "tag", tag), (text "value", value)]

section

variable (typeMap : List Int → Int → Option Int)

/-- The index of the member that a type code selects; `typeMap` is the library's property of the
union type with these codes. -/
def childIndex (typeIds : List Int) (code : Int) : Int :=
  (typeMap typeIds code).getD code

/-- The type code of a row. -/
def typeCode (data : Option Chunk) (children : List (FieldOf DataType)) (index : Nat) : Option Int :=
  match data.bind Chunk.unionRows with
  | some rows => rows.typeIds[index]?
  | none => some (if children.isEmpty then -1 else 0)

/-- The row's index in the member. -/
def childRow (mode : UnionMode) (data : Chunk) (index : Nat) : Nat :=
  match mode, data.unionRows.bind UnionRows.offsets with
  | .dense, some offsets => offsets[index]?.getD 0
  | _, _ => index

mutual

def readCanonicalValue : DataType → Source → Nat → Except Text Value
  | .struct children, column, index =>
      match (childData column).bind Chunk.children with
      | none => canonicalize (.struct children) (column.readAt index)
      | some nodes =>
          if isNullAt (childData column) index then .ok .null
          else do
            let members ← readMembers children nodes 0 index
            .ok (.object (OrderedMap.ofEntries members).entries)
  | .union mode typeIds children, column, index =>
      if isNullAt (childData column) index then .ok (taggedUnion .null .null)
      else
        match childData column, typeCode (childData column) children index with
        | some data, some code =>
            match data.children, childIndex typeMap typeIds code with
            | some nodes, .ofNat member =>
                readMember children member (childSource nodes member) (childRow mode data index)
            | _, _ => .ok (taggedUnion .null .null)
        | _, _ => .ok (taggedUnion .null .null)
  | type, column, index => canonicalize type (column.readAt index)

/-- The members of a struct, from the child at a position on. -/
def readMembers : List (FieldOf DataType) → List Chunk → Nat → Nat →
    Except Text (List (Text × Value))
  | [], _, _, _ => .ok []
  | ⟨name, type, _, _⟩ :: rest, nodes, position, index => do
      let first ← readCanonicalValue type (childSource nodes position) index
      let others ← readMembers rest nodes (position + 1) index
      .ok ((name, first) :: others)

/-- The member of a union at a position, with its name as the tag. -/
def readMember : List (FieldOf DataType) → Nat → Source → Nat → Except Text Value
  | [], _, _, _ => .ok (taggedUnion .null .null)
  | ⟨name, type, _, _⟩ :: _, 0, node, row => do
      let value ← readCanonicalValue type node row
      .ok (taggedUnion (.string name) value)
  | _ :: rest, position + 1, node, row => readMember rest position node row

end

end

end VgiWorker.Arrow.Flechette
