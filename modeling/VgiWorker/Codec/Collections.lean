import VgiWorker.Codec.Conform

/-!
# Record collections

Records of one schema as the rows of a stream: maps in key order on the way out,
plain values on the way back. The Arrow library is a parameter.
-/

set_option autoImplicit false

namespace VgiWorker.Codec

open Js Arrow
open Protocol (Row rowMember)

/-! ## Maps in key order -/

def isSurrogate (unit : CodeUnit) : Bool :=
  0xd800 ≤ unit.toNat && unit.toNat ≤ 0xdfff

/-- `compareCodePoints(left, right) <= 0`. -/
def codePointsLe : Text → Text → Bool
  | [], _ => true
  | _ :: _, [] => false
  | left :: leftRest, right :: rightRest =>
      if left = right then codePointsLe leftRest rightRest
      else if isSurrogate left ≠ isSurrogate right then isSurrogate right
      else left.toNat < right.toNat

section

variable (dateText : Number → Text)

/-- `compareKeys(left, right) <= 0`. -/
def keysLe (left right : Rich) : Bool :=
  match left, right with
  | .string left, .string right => codePointsLe left right
  | .number left, .number right => !(right.less left)
  | .number left, .bigint right => !((Value.bigint right).less (.number left))
  | .bigint left, .number right => !((Value.number right).less (.bigint left))
  | .bigint left, .bigint right => left ≤ right
  | left, right => codePointsLe (left.toText dateText) (right.toText dateText)

mutual

def typeHasMap : DataType → Bool
  | .map _ _ => true
  | .list children => childHasMap children
  | .struct children => childHasMap children
  | _ => false

def childHasMap : List (FieldOf DataType) → Bool
  | [] => false
  | ⟨_, type, _, _⟩ :: rest => typeHasMap type || childHasMap rest

end

mutual

def sortMapsForType : DataType → Rich → Rich
  | .map _ children, value =>
      if isRichNull value then value
      else .array (((sortPairs children (mapPairs value)).mergeSort
        fun left right => keysLe dateText left.1 right.1).map pairArray)
  | .list children, value =>
      if isRichNull value || !childHasMap children then value
      else .array (sortItems children (arrayFrom value))
  | .struct children, value =>
      if isRichNull value || !childHasMap children then value
      else .object (setMembers (ownEntries value) (sortedMembers children (ownEntries value)))
  | _, value => value

def sortPairs : List (FieldOf DataType) → List (Rich × Rich) → List (Rich × Rich)
  | ⟨_, .struct (_ :: ⟨_, valueType, _, _⟩ :: _), _, _⟩ :: _, pairs =>
      pairs.map fun pair => (pair.1, sortMapsForType valueType pair.2)
  | _, pairs => pairs

def sortItems : List (FieldOf DataType) → List Rich → List Rich
  | ⟨_, type, _, _⟩ :: _, items => items.map fun item => sortMapsForType type item
  | [], items => items

def sortedMembers : List (FieldOf DataType) → List (Text × Rich) → List (Text × Rich)
  | [], _ => []
  | ⟨name, type, _, _⟩ :: rest, members =>
      (name, sortMapsForType type ((lookupEntry members name).getD .null)) ::
        sortedMembers rest members

end

/-- Only a field with a map in it is touched, and only where the record has it. -/
def sortMapsForSchema (schema : Schema) (record : Row) : Row :=
  schema.fields.foldl
    (fun sorted field =>
      if typeHasMap field.type && !isRichNull (rowMember record field.name) then
        setEntry sorted field.name
          (sortMapsForType dateText field.type (rowMember record field.name))
      else sorted)
    record

/-! ## Plain values -/

mutual

def normalizeValue : DataType → Value → Rich
  | _, .null => .null
  | .list children, .array items => .array (normalizeItems children items)
  | .map _ children, .array pairs => .object (normalizePairs children pairs)
  | .struct children, .object members => .object (normalizeMembers children members)
  | .dictionary _ dictionary _ _, value => normalizeValue dictionary value
  | .binary, .bytes value => .bytes value
  | .largeBinary, .bytes value => .bytes value
  | .binary, _ => .bytes []
  | .largeBinary, _ => .bytes []
  | .int 64 _, .bigint value =>
      if value.natAbs ≤ Number.maxSafeInteger then .number (Number.ofInt value) else .bigint value
  | .bool, value => .bool value.truthy
  | _, value => Rich.ofValue value

def normalizeItems : List (FieldOf DataType) → List Value → List Rich
  | ⟨_, type, _, _⟩ :: _, items => items.map fun item => normalizeValue type item
  | [], items => items.map Rich.ofValue

/-- The members of the object, a later key over an equal earlier one. -/
def normalizePairs : List (FieldOf DataType) → List Value → List (Text × Rich)
  | ⟨_, .struct (_ :: ⟨_, valueType, _, _⟩ :: _), _, _⟩ :: _, pairs =>
      pairs.foldl
        (fun members pair =>
          match pair with
          | .array [key, value] => setEntry members key.toText (normalizeValue valueType value)
          | _ => members)
        []
  | _, _ => []

def normalizeMembers : List (FieldOf DataType) → List (Text × Value) → List (Text × Rich)
  | [], _ => []
  | ⟨name, type, _, _⟩ :: rest, members =>
      (name, normalizeValue type ((lookupEntry members name).getD .null)) ::
        normalizeMembers rest members

end

/-! ## The library -/

/-- An Arrow library, as far as tables of canonical cells go through its streams. -/
structure TableLibrary (Stream : Type) where
  /-- The batches hold at most the given number of rows. -/
  tableToIPC : Schema → List (List Value) → Nat → Except Text Stream
  deserializeBatches : Stream → Except Text (List Batch)
  deserializeSchema : Stream → Except Text Schema

/-- A field as a reader of its stream compares it. -/
def SameField (written read : Field) : Prop :=
  read.name = written.name ∧ read.nullable = written.nullable ∧
    typeSignature read.type = typeSignature written.type

/-- The batch of some rows. -/
def tableBatch (schema : Schema) (rows : List (List Value)) : Batch where
  schema := schema
  columns := (List.range schema.fields.length).map fun index =>
    rows.map fun row => row[index]?.getD .null
  numRows := rows.length
  metadata := none

def keyText? : Value → Option Text
  | .array (.string key :: _) => some key
  | _ => none

mutual

/-- What a column of the type gives back for a canonical value, where it is one of the type. -/
def keptCell : DataType → Value → Option Value
  | _, .null => some .null
  | .bool, .bool value => some (.bool value)
  | .int bitWidth signed, .number value =>
      match value.toInt? with
      | some integer =>
          if (intRange bitWidth signed).1 ≤ integer ∧ integer ≤ (intRange bitWidth signed).2 then
            some (if bitWidth = 64 then .bigint integer else .number (Number.ofInt integer))
          else none
      | none => none
  | .int 64 signed, .bigint value =>
      if (intRange 64 signed).1 ≤ value ∧ value ≤ (intRange 64 signed).2 then some (.bigint value)
      else none
  | .utf8, .string value =>
      if IsWellFormed value ∧ value.head? ≠ some 0xfeff then some (.string value) else none
  | .binary, .bytes value => some (.bytes value)
  | .list children, .array items => (keptItems children items).map .array
  | .map _ children, .array pairs => (keptPairs children pairs).map .array
  | .struct children, .object members => (keptMembers children members).map .object
  | .dictionary _ dictionary _ _, value => keptCell dictionary value
  | _, _ => none

def keptItems : List (FieldOf DataType) → List Value → Option (List Value)
  | ⟨_, type, _, _⟩ :: _, items => items.mapM fun item => keptCell type item
  | [], _ => none

/-- The entries go through a `Map`, which holds a key once. -/
def keptPairs : List (FieldOf DataType) → List Value → Option (List Value)
  | ⟨_, .struct (⟨_, .utf8, _, _⟩ :: ⟨_, valueType, _, _⟩ :: _), _, _⟩ :: _, pairs =>
      if (pairs.filterMap keyText?).Nodup then
        pairs.mapM fun pair =>
          match pair with
          | .array [.string key, value] =>
              if IsWellFormed key ∧ key.head? ≠ some 0xfeff then
                (keptCell valueType value).map fun kept => .array [.string key, kept]
              else none
          | _ => none
      else none
  | _, _ => none

def keptMembers : List (FieldOf DataType) → List (Text × Value) → Option (List (Text × Value))
  | [], _ => some []
  | ⟨name, type, _, _⟩ :: rest, members =>
      match keptCell type ((lookupEntry members name).getD .null), keptMembers rest members with
      | some kept, some others => some ((name, kept) :: others)
      | _, _ => none

end

def keptRow (schema : Schema) (cells : List Value) : Option (List Value) :=
  if cells.length = schema.fields.length then
    (schema.fields.zip cells).mapM fun entry => keptCell entry.1.type entry.2
  else none

/-- What is relied on: the rows of canonical cells that columns of their types can hold come
back, in order and as those columns give them, in batches of the schema they were written with. -/
def TableLibrary.Lawful {Stream : Type} (library : TableLibrary Stream) : Prop :=
  ∀ (schema : Schema) (rows kept : List (List Value)) (limit : Nat), rows ≠ [] → 0 < limit →
    rows.mapM (keptRow schema) = some kept →
      ∃ (stream : Stream) (read : Schema) (chunks : List (List (List Value))),
        library.tableToIPC schema rows limit = .ok stream ∧
          library.deserializeBatches stream = .ok (chunks.map (tableBatch read)) ∧
            chunks.flatten = kept ∧ List.Forall₂ SameField schema.fields read.fields

/-! ## `asd.ts` -/

inductive CollectionFault where
  | codec (fault : CodecError)
  | library (message : Text)
  | error (message : Text)
  deriving DecidableEq

variable {Stream : Type} (library : TableLibrary Stream)

def rowCell (record : Row) (field : Field) : Except CollectionFault Value :=
  (richToCanonical dateText field.type (rowMember record field.name)).mapError .codec

/-- `batchFromRows`; the source goes column by column, which shows only in the failure met. -/
def rowCells (schema : Schema) (record : Row) : Except CollectionFault (List Value) :=
  schema.fields.mapM (rowCell dateText record)

def serializeCollectionRows (schema : Schema) (records : List Row) (maxBatchRows : Nat) :
    Except CollectionFault Stream := do
  let rows ← records.mapM (rowCells dateText schema)
  (library.tableToIPC schema rows maxBatchRows).mapError .library

def encodeASDCollection (schema : Schema) (records : List Row) :
    Except CollectionFault (Option Stream) :=
  match records with
  | [] => .ok none
  | _ =>
      some <$> serializeCollectionRows dateText library schema
        (records.map fun record => sortMapsForSchema dateText schema (conformRecord schema record))
        1024

def sameField (written read : Field) : Bool :=
  read.name = written.name && read.nullable = written.nullable &&
    typeSignature read.type = typeSignature written.type

def validateSchema (schema actual : Schema) : Except CollectionFault Unit :=
  if actual.fields.length = schema.fields.length ∧
      (schema.fields.zip actual.fields).all (fun entry => sameField entry.1 entry.2) then .ok ()
  else .error (.error (text "catalog collection has an incompatible metadata schema"))

def decodeMember (batch : Batch) (row : Nat) (field : Field) :
    Except CollectionFault (Text × Rich) :=
  let value := ((batch.getChild field.name).bind (·[row]?)).getD .null
  if isCanonicalNull value ∧ field.nullable = false then
    .error (.error (text "catalog collection has null " ++ field.name))
  else .ok (field.name, normalizeValue field.type value)

def decodeBatch (schema : Schema) (batch : Batch) : Except CollectionFault (List Row) := do
  validateSchema schema batch.schema
  (List.range batch.numRows).mapM fun row => schema.fields.mapM (decodeMember batch row)

def decodeASDCollection (schema : Schema) (bytes : Option Stream) :
    Except CollectionFault (List Row) :=
  match bytes with
  | none => .ok []
  | some bytes => do
      let batches ← (library.deserializeBatches bytes).mapError .library
      if batches.isEmpty then
        let actual ← (library.deserializeSchema bytes).mapError .library
        validateSchema schema actual
      let rows ← batches.mapM (decodeBatch schema)
      .ok rows.flatten

/-! ## One record -/

/-- The value of a member on its way out. -/
def settledMember (field : Field) (value : Rich) : Rich :=
  sortMapsForType dateText field.type
    ((conformValue field.type (some value) field.nullable field.name).getD value)

/-- What a member is read back as. -/
def carryMember (field : Field) (value : Rich) : Option Rich :=
  match richToCanonical dateText field.type (settledMember dateText field value) with
  | .error _ => none
  | .ok canonical =>
      match keptCell field.type canonical with
      | none => none
      | some cell =>
          if isCanonicalNull cell ∧ field.nullable = false then none
          else some (normalizeValue field.type cell)

def carryEntry (record : Row) (field : Field) : Option (Text × Rich) :=
  (carryMember dateText field (rowMember record field.name)).map fun value => (field.name, value)

/-- What a record is read back as, where all of its members can be. -/
def carried (schema : Schema) (record : Row) : Option Row :=
  schema.fields.mapM (carryEntry dateText record)

end

end VgiWorker.Codec
