import VgiWorker.Arrow.Value

/-!
# Codecs between rich and canonical values

The rich value of a cell is what an author sees: the canonical one, except that
dates are `Date`s. Both directions validate.
-/

set_option autoImplicit false

namespace VgiWorker.Arrow

open VgiWorker.Js

/-- An author-facing value; a `Date` is its time value. -/
inductive Rich where
  | null
  | bool (value : Bool)
  | number (value : Number)
  | bigint (value : Int)
  | string (value : Text)
  | bytes (value : Bytes)
  | date (time : Number)
  | array (elements : List Rich)
  | object (entries : List (Text × Rich))

structure CodecError where
  label : Text
  message : Text
  deriving DecidableEq

def codecMessage (fault : CodecError) : Text :=
  text "codec[" ++ fault.label ++ text "]: " ++ fault.message

mutual

/-- A canonical value that is its own rich value. -/
def Rich.ofValue : Value → Rich
  | .null => .null
  | .bool value => .bool value
  | .number value => .number value
  | .bigint value => .bigint value
  | .string value => .string value
  | .bytes value => .bytes value
  | .array elements => .array (Rich.ofElements elements)
  | .object entries => .object (Rich.ofEntries entries)

def Rich.ofElements : List Value → List Rich
  | [] => []
  | element :: rest => Rich.ofValue element :: Rich.ofElements rest

def Rich.ofEntries : List (Text × Value) → List (Text × Rich)
  | [] => []
  | (name, value) :: rest => (name, Rich.ofValue value) :: Rich.ofEntries rest

end

mutual

/-- A rich value passed through unchanged; a `Date` has no canonical form of its own. -/
def Rich.toValue : Rich → Value
  | .null => .null
  | .bool value => .bool value
  | .number value => .number value
  | .bigint value => .bigint value
  | .string value => .string value
  | .bytes value => .bytes value
  | .date _ => .object []
  | .array elements => .array (Rich.toElements elements)
  | .object entries => .object (Rich.toEntries entries)

def Rich.toElements : List Rich → List Value
  | [] => []
  | element :: rest => Rich.toValue element :: Rich.toElements rest

def Rich.toEntries : List (Text × Rich) → List (Text × Value)
  | [] => []
  | (name, value) :: rest => (name, Rich.toValue value) :: Rich.toEntries rest

end

/-! ## Scalars -/

def codecError {α : Type} (label message : String) : Except CodecError α :=
  .error ⟨text label, text message⟩

def msPerDay : Int := 86400000

/-- The greatest `|time|` of a valid `Date`, in milliseconds. -/
def maxTime : Int := 8640000000000000

/-- `new Date(ms)`, which is invalid out of range. -/
def makeDate (ms : Int) : Number :=
  if ms.natAbs ≤ maxTime.natAbs then Number.ofInt ms else .nan

def integerOf (value : Number) (label message : String) : Except CodecError Int :=
  match value.toInt? with
  | some integer => .ok integer
  | none => codecError label message

def toBigIntStrict (label : String) : Rich → Except CodecError Int
  | .bigint value => .ok value
  | .number value => integerOf value label "expected an integer value"
  | _ => codecError label "expected number or bigint"

def bigIntToSafeNumber (label : String) (value : Int) : Except CodecError Number :=
  if value.natAbs ≤ Number.maxSafeInteger then .ok (Number.ofInt value)
  else codecError label "bigint overflows the safe-integer range when narrowing to number"

/-- An integral number or a bigint within `[low, high]`, unchanged. -/
def checkInteger (label : String) (low high : Int) : Rich → Except CodecError Value
  | .number value => do
      let integer ← integerOf value label "expected an integer"
      if low ≤ integer ∧ integer ≤ high then .ok (.number value)
      else codecError label "value out of range"
  | .bigint value =>
      if low ≤ value ∧ value ≤ high then .ok (.bigint value)
      else codecError label "value out of range"
  | _ => codecError label "expected number"

def intRange (bitWidth : Nat) (signed : Bool) : Int × Int :=
  let width := if bitWidth = 64 ∨ bitWidth = 8 ∨ bitWidth = 16 then bitWidth else 32
  if signed then (-2 ^ (width - 1), 2 ^ (width - 1) - 1) else (0, 2 ^ width - 1)

/-- `Math.floor(ms / MS_PER_DAY)` of a valid `Date`. -/
def dayOfTime (time : Number) : Except CodecError Value :=
  match time.toInt? with
  | some ms => .ok (.number (Number.ofInt (ms.fdiv msPerDay)))
  | none => codecError "date32" "invalid Date"

def dateDayToCanonical : Rich → Except CodecError Value
  | .date time => dayOfTime time
  | .number value => do
      let _ ← integerOf value "date32" "day-number must be an integer"
      .ok (.number value)
  | .bigint value => .number <$> bigIntToSafeNumber "date32" value
  | _ => codecError "date32" "expected Date, number (days), or bigint"

def dateOfMs (label : String) (ms : Int) : Except CodecError Rich :=
  match makeDate ms with
  | .nan => codecError label "value produces an invalid Date"
  | time => .ok (.date time)

def dateDayToRich : Value → Except CodecError Rich
  | .number value => do
      let days ← integerOf value "date32" "canonical day-number must be an integer"
      dateOfMs "date32" (days * msPerDay)
  | .bigint value => do
      let _ ← bigIntToSafeNumber "date32" value
      dateOfMs "date32" (value * msPerDay)
  | _ => codecError "date32" "expected number (days) canonical"

def dateMillisToCanonical : Rich → Except CodecError Value
  | .date time => .bigint <$> integerOf time "date64" "invalid Date"
  | .bigint value => .ok (.bigint value)
  | .number value => .bigint <$> integerOf value "date64" "ms value must be an integer"
  | _ => codecError "date64" "expected Date, bigint (ms), or number"

def dateMillisToRich (value : Value) : Except CodecError Rich := do
  let ms ← toBigIntStrict "date64" (Rich.ofValue value)
  let _ ← bigIntToSafeNumber "date64" ms
  dateOfMs "date64" ms

def time32ToCanonical : Rich → Except CodecError Value
  | .number value => do
      let _ ← integerOf value "time32" "time32 value must be an integer"
      .ok (.number value)
  | .bigint value => .number <$> bigIntToSafeNumber "time32" value
  | _ => codecError "time32" "expected number (raw time unit)"

def time32ToRich : Value → Except CodecError Rich
  | .number value => .ok (.number value)
  | .bigint value => .number <$> bigIntToSafeNumber "time32" value
  | _ => codecError "time32" "expected number canonical"

/-- `decimalViewToBigInt`: little-endian two's complement. -/
def decimalViewToBigInt (bytes : Bytes) : Int :=
  let magnitude : Nat := bytes.foldr (fun byte value => byte.toNat + 256 * value) 0
  if bytes.getLast?.any (fun byte => 128 ≤ byte.toNat) then magnitude - 256 ^ bytes.length
  else magnitude

def decimalToCanonical : Rich → Except CodecError Value
  | .bytes value => .ok (.bigint (decimalViewToBigInt value))
  | value => .bigint <$> toBigIntStrict "decimal" value

def bytesToCanonical (fixedWidth : Option Nat) : Rich → Except CodecError Value
  | .bytes value =>
      if fixedWidth.any (· ≠ value.length) then codecError "binary" "expected exactly the width"
      else .ok (.bytes value)
  | _ => codecError "binary" "expected Uint8Array"

mutual

/-- `String(value)` of a rich value; `dateText` is that of a `Date`, which depends on the
time zone of the host. -/
def Rich.toText (dateText : Number → Text) : Rich → Text
  | .null => text "null"
  | .bool value => if value then text "true" else text "false"
  | .number value => value.toText
  | .bigint value => Number.decimalInt value
  | .string value => value
  | .bytes value => joinText (text ",") (value.map fun byte => Number.decimal byte.toNat)
  | .date time => dateText time
  | .array elements => joinText (text ",") (Rich.elementTexts dateText elements)
  | .object _ => text "[object Object]"

def Rich.elementTexts (dateText : Number → Text) : List Rich → List Text
  | [] => []
  | .null :: rest => [] :: Rich.elementTexts dateText rest
  | element :: rest => Rich.toText dateText element :: Rich.elementTexts dateText rest

end

section

variable (dateText : Number → Text)

/-- The codec of a type with no children, from rich to canonical, on non-null values. -/
def scalarToCanonical : DataType → Rich → Except CodecError Value
  | .null, _ => .ok .null
  | .bool, .bool value => .ok (.bool value)
  | .bool, _ => codecError "bool" "expected boolean"
  | .int bitWidth signed, value =>
      checkInteger "int" (intRange bitWidth signed).1 (intRange bitWidth signed).2 value
  | .float _, .number value => .ok (.number value)
  | .float _, .bigint value => .ok (.bigint value)
  | .float _, _ => codecError "float" "expected number"
  | .utf8, value => .ok (.string (value.toText dateText))
  | .largeUtf8, value => .ok (.string (value.toText dateText))
  | .binary, value => bytesToCanonical none value
  | .largeBinary, value => bytesToCanonical none value
  | .fixedSizeBinary byteWidth, value => bytesToCanonical (some byteWidth) value
  | .decimal _ _ _, value => decimalToCanonical value
  | .date .day, value => dateDayToCanonical value
  | .date .millisecond, value => dateMillisToCanonical value
  | .time _ bitWidth, value =>
      if bitWidth = 64 then .bigint <$> toBigIntStrict "time64" value else time32ToCanonical value
  | .timestamp _ _, value => .bigint <$> toBigIntStrict "timestamp" value
  | .duration _, value => .bigint <$> toBigIntStrict "duration" value
  | _, value => .ok value.toValue

example : scalarToCanonical dateText .null (.bool true) = .ok .null := by simp [scalarToCanonical]

/-- From canonical to rich, on non-null values. -/
def scalarToRich : DataType → Value → Except CodecError Rich
  | .null, _ => .ok .null
  | .utf8, .string value => .ok (.string value)
  | .largeUtf8, .string value => .ok (.string value)
  | .utf8, _ => codecError "utf8" "expected string"
  | .largeUtf8, _ => codecError "utf8" "expected string"
  | .date .day, value => dateDayToRich value
  | .date .millisecond, value => dateMillisToRich value
  | .time _ bitWidth, value =>
      if bitWidth = 64 then .bigint <$> toBigIntStrict "time64" (Rich.ofValue value)
      else time32ToRich value
  -- The other scalar codecs are the same both ways.
  | type, value => do
      let canonical ← scalarToCanonical dateText type (Rich.ofValue value)
      .ok (Rich.ofValue canonical)

/-- `toArray` of the list codec: any iterable. -/
def richElements : Rich → Except CodecError (List Rich)
  | .array elements => .ok elements
  | .bytes value => .ok (value.map fun byte => .number (Number.ofNat byte.toNat))
  | .string value => .ok ((iterated value).map .string)
  | _ => codecError "list" "expected an array or iterable"

/-- `obj[name]` of an object, a missing member being null. -/
def richMember (value : Rich) (name : Text) : Except CodecError Rich :=
  match value with
  | .object entries => .ok ((lookupEntry entries name).getD .null)
  | .array _ | .bytes _ | .date _ => .ok .null
  | _ => codecError "struct" "expected an object"

def canonicalMember (value : Value) (name : Text) : Except CodecError Value :=
  match value with
  | .object entries => .ok ((lookupEntry entries name).getD .null)
  | .array _ | .bytes _ => .ok .null
  | _ => codecError "struct" "expected an object"

def canonicalElements : Value → Except CodecError (List Value)
  | .array elements => .ok elements
  | .bytes value => .ok (value.map fun byte => .number (Number.ofNat byte.toNat))
  | .string value => .ok ((iterated value).map .string)
  | _ => codecError "list" "expected an array or iterable"

def isRichNull : Rich → Bool
  | .null => true
  | _ => false

theorem isRichNull_iff (value : Rich) : isRichNull value = true ↔ value = .null := by
  cases value <;> simp [isRichNull]

def isCanonicalNull : Value → Bool
  | .null => true
  | _ => false

/-- `[key, value]` of a map entry. -/
def richPair : Rich → Except CodecError (Rich × Rich)
  | .array elements => .ok (elements[0]?.getD .null, elements[1]?.getD .null)
  | _ => codecError "map" "expected Map, array of pairs, or object"

def canonicalPair : Value → Except CodecError (Value × Value)
  | .array elements => .ok (elements[0]?.getD .null, elements[1]?.getD .null)
  | _ => codecError "map" "expected Map, array of pairs, or object"

/-- `toPairs` of the map codec. -/
def richPairs : Rich → Except CodecError (List (Rich × Rich))
  | .array elements => elements.mapM richPair
  | .object entries => .ok (entries.map fun entry => (.string entry.1, entry.2))
  | _ => codecError "map" "expected Map, array of pairs, or object"

def canonicalPairs : Value → Except CodecError (List (Value × Value))
  | .array elements => elements.mapM canonicalPair
  | .object entries => .ok (entries.map fun entry => (.string entry.1, entry.2))
  | _ => codecError "map" "expected Map, array of pairs, or object"

/-! ## Nested types -/

mutual

/-- `codecFor(type).richToCanonical(value)`. -/
def richToCanonical : DataType → Rich → Except CodecError Value
  | .struct children, value =>
      if isRichNull value then .ok .null
      else do
        let members ← structToCanonical children value
        -- `out[name] = v`, for children with names other than `__proto__`.
        .ok (.object (OrderedMap.ofEntries members).entries)
  | .list children, value => listToCanonical children value
  | .fixedSizeList _ children, value => listToCanonical children value
  | .map _ children, value => mapToCanonical children value
  | .dictionary _ dictionary _ _, value => richToCanonical dictionary value
  | type, value => if isRichNull value then .ok .null else scalarToCanonical dateText type value

def structToCanonical : List (FieldOf DataType) → Rich → Except CodecError (List (Text × Value))
  | [], _ => .ok []
  | ⟨name, type, _, _⟩ :: rest, value => do
      let member ← richMember value name
      let first ← richToCanonical type member
      let others ← structToCanonical rest value
      .ok ((name, first) :: others)

def listToCanonical : List (FieldOf DataType) → Rich → Except CodecError Value
  | [], _ => codecError "list" "list type has no child field"
  | ⟨_, type, _, _⟩ :: _, value =>
      if isRichNull value then .ok .null
      else do
        let elements ← richElements value
        let canonical ← elements.mapM (richToCanonical type)
        .ok (.array canonical)

def mapToCanonical : List (FieldOf DataType) → Rich → Except CodecError Value
  | ⟨_, .struct (⟨_, keyType, _, _⟩ :: ⟨_, valueType, _, _⟩ :: _), _, _⟩ :: _, value =>
      if isRichNull value then .ok .null
      else do
        let pairs ← richPairs value
        let canonical ← pairs.mapM fun pair => do
          let key ← richToCanonical keyType pair.1
          let held ← richToCanonical valueType pair.2
          .ok (Value.array [key, held])
        .ok (.array canonical)
  | _, _ => codecError "map" "map type has no key/value entry fields"

end

mutual

/-- `codecFor(type).canonicalToRich(value)`. -/
def canonicalToRich : DataType → Value → Except CodecError Rich
  | .struct children, value =>
      if isCanonicalNull value then .ok .null
      else do
        let members ← structToRich children value
        -- `out[name] = v`, for children with names other than `__proto__`.
        .ok (.object (OrderedMap.ofEntries members).entries)
  | .list children, value => listToRich children value
  | .fixedSizeList _ children, value => listToRich children value
  | .map _ children, value => mapToRich children value
  | .dictionary _ dictionary _ _, value => canonicalToRich dictionary value
  | type, value => if isCanonicalNull value then .ok .null else scalarToRich dateText type value

def structToRich : List (FieldOf DataType) → Value → Except CodecError (List (Text × Rich))
  | [], _ => .ok []
  | ⟨name, type, _, _⟩ :: rest, value => do
      let member ← canonicalMember value name
      let first ← canonicalToRich type member
      let others ← structToRich rest value
      .ok ((name, first) :: others)

def listToRich : List (FieldOf DataType) → Value → Except CodecError Rich
  | [], _ => codecError "list" "list type has no child field"
  | ⟨_, type, _, _⟩ :: _, value =>
      if isCanonicalNull value then .ok .null
      else do
        let elements ← canonicalElements value
        let rich ← elements.mapM (canonicalToRich type)
        .ok (.array rich)

def mapToRich : List (FieldOf DataType) → Value → Except CodecError Rich
  | ⟨_, .struct (⟨_, keyType, _, _⟩ :: ⟨_, valueType, _, _⟩ :: _), _, _⟩ :: _, value =>
      if isCanonicalNull value then .ok .null
      else do
        let pairs ← canonicalPairs value
        let rich ← pairs.mapM fun pair => do
          let key ← canonicalToRich keyType pair.1
          let held ← canonicalToRich valueType pair.2
          .ok (Rich.array [key, held])
        .ok (.array rich)
  | _, _ => codecError "map" "map type has no key/value entry fields"

end

/-! ## Rows -/

/-- `batch.getChild(name)`: the first column of that name. -/
def Batch.getChild (batch : Batch) (name : Text) : Option Column :=
  (batch.schema.fields.findIdx? fun field => field.name = name).bind batch.getChildAt

/-- The members of a row after those already set. -/
def rowEntries (batch : Batch) (row : Nat) (entries : List (Text × Rich)) :
    List Field → Except CodecError (List (Text × Rich))
  | [] => .ok entries
  | field :: rest =>
      match batch.getChild field.name with
      | none => rowEntries batch row (setEntry entries field.name .null) rest
      | some column => do
          let rich ← canonicalToRich dateText field.type (readCanonicalValue column row)
          rowEntries batch row (setEntry entries field.name rich) rest

/-- A row that `iterRows` yields. -/
def rowAt (batch : Batch) (row : Nat) : Except CodecError (List (Text × Rich)) :=
  rowEntries dateText batch row [] batch.schema.fields

/-- The rows that iterating a batch gives. -/
def iterRows (batch : Batch) : Except CodecError (List (List (Text × Rich))) :=
  (List.range batch.numRows).mapM (rowAt dateText batch)

end

/-! ## The raw view -/

/-- A day number, checked. -/
def checkDay (notInteger notDay : String) : Value → Except CodecError Value
  | .number value => do
      let _ ← integerOf value "date32" notInteger
      .ok (.number value)
  | .bigint value => .number <$> bigIntToSafeNumber "date32" value
  | _ => codecError "date32" notDay

def time32ToRaw : Value → Except CodecError Value
  | .number value => .ok (.number value)
  | .bigint value => .number <$> bigIntToSafeNumber "time32" value
  | _ => codecError "time32" "expected number canonical"

section

variable (dateText : Number → Text)

/-- `rawToCanonical` of the codecs with no children, on non-null values. -/
def scalarFromRaw : DataType → Value → Except CodecError Value
  | .date .day, value =>
      checkDay "raw day-number must be an integer" "expected branded Date32 (day-number)" value
  | .date .millisecond, value => .bigint <$> toBigIntStrict "date64" (Rich.ofValue value)
  | type, value => scalarToCanonical dateText type (Rich.ofValue value)

/-- `canonicalToRaw` of the codecs with no children, on non-null values. -/
def scalarToRaw : DataType → Value → Except CodecError Value
  | .utf8, .string value => .ok (.string value)
  | .largeUtf8, .string value => .ok (.string value)
  | .utf8, _ => codecError "utf8" "expected string"
  | .largeUtf8, _ => codecError "utf8" "expected string"
  | .date .day, value =>
      checkDay "canonical day-number must be an integer" "expected number (days) canonical" value
  | .date .millisecond, value => .bigint <$> toBigIntStrict "date64" (Rich.ofValue value)
  | .time unit bitWidth, value =>
      if bitWidth = 64 then scalarToCanonical dateText (.time unit bitWidth) (Rich.ofValue value)
      else time32ToRaw value
  | type, value => scalarToCanonical dateText type (Rich.ofValue value)

end

section

variable (scalar : DataType → Value → Except CodecError Value)

mutual

/-- The same conversion at every depth. -/
def convertRaw : DataType → Value → Except CodecError Value
  | .struct children, value =>
      if isCanonicalNull value then .ok .null
      else do
        let members ← convertMembers children value
        .ok (.object (OrderedMap.ofEntries members).entries)
  | .list children, value => convertItems children value
  | .fixedSizeList _ children, value => convertItems children value
  | .map _ children, value => convertPairs children value
  | .dictionary _ dictionary _ _, value => convertRaw dictionary value
  | type, value => if isCanonicalNull value then .ok .null else scalar type value

def convertMembers : List (FieldOf DataType) → Value → Except CodecError (List (Text × Value))
  | [], _ => .ok []
  | ⟨name, type, _, _⟩ :: rest, value => do
      let member ← canonicalMember value name
      let first ← convertRaw type member
      let others ← convertMembers rest value
      .ok ((name, first) :: others)

def convertItems : List (FieldOf DataType) → Value → Except CodecError Value
  | [], _ => codecError "list" "list type has no child field"
  | ⟨_, type, _, _⟩ :: _, value =>
      if isCanonicalNull value then .ok .null
      else do
        let elements ← canonicalElements value
        let converted ← elements.mapM (convertRaw type)
        .ok (.array converted)

def convertPairs : List (FieldOf DataType) → Value → Except CodecError Value
  | ⟨_, .struct (⟨_, keyType, _, _⟩ :: ⟨_, valueType, _, _⟩ :: _), _, _⟩ :: _, value =>
      if isCanonicalNull value then .ok .null
      else do
        let pairs ← canonicalPairs value
        let converted ← pairs.mapM fun pair => do
          let key ← convertRaw keyType pair.1
          let held ← convertRaw valueType pair.2
          .ok (Value.array [key, held])
        .ok (.array converted)
  | _, _ => codecError "map" "map type has no key/value entry fields"

end

end

def rawToCanonical (dateText : Number → Text) : DataType → Value → Except CodecError Value :=
  convertRaw (scalarFromRaw dateText)

def canonicalToRaw (dateText : Number → Text) : DataType → Value → Except CodecError Value :=
  convertRaw (scalarToRaw dateText)

/-! ## Column names -/

/-- No earlier column has the name of the one at the position. -/
def FirstOfName (fields : List Field) (position : Nat) : Prop :=
  ∀ field, fields[position]? = some field → ∀ earlier < position, ∀ other,
    fields[earlier]? = some other → other.name ≠ field.name

theorem findIdx?_firstOfName (fields : List Field) (position : Nat) (field : Field)
    (here : fields[position]? = some field) (first : FirstOfName fields position) :
    fields.findIdx? (fun other => other.name = field.name) = some position := by
  obtain ⟨inside, isField⟩ := List.getElem?_eq_some_iff.mp here
  rw [List.findIdx?_eq_some_iff_getElem]
  refine ⟨inside, by simp [isField], fun earlier before => ?_⟩
  have different := first field here earlier before _
    (List.getElem?_eq_getElem (Nat.lt_trans before inside))
  simpa using different

theorem firstOfName_of_nodup (fields : List Field) (distinct : (fields.map FieldOf.name).Nodup)
    (position : Nat) : FirstOfName fields position := by
  intro field here earlier before other there same
  have names (index : Nat) (held : Field) (isHeld : fields[index]? = some held) :
      (fields.map FieldOf.name)[index]? = some held.name := by
    rw [List.getElem?_map, isHeld, Option.map_some]
  have clash := (names earlier other there).trans (same ▸ (names position field here).symm)
  have inside := (List.getElem?_eq_some_iff.mp (names earlier other there)).1
  exact Nat.ne_of_lt before ((List.getElem?_inj inside distinct).mp clash)

theorem findIdx?_nodup (fields : List Field) (distinct : (fields.map FieldOf.name).Nodup)
    (position : Nat) (field : Field) (here : fields[position]? = some field) :
    fields.findIdx? (fun other => other.name = field.name) = some position :=
  findIdx?_firstOfName fields position field here (firstOfName_of_nodup fields distinct position)

theorem getChild_firstOfName (batch : Batch) (position : Nat) (field : Field)
    (here : batch.schema.fields[position]? = some field)
    (first : FirstOfName batch.schema.fields position) :
    batch.getChild field.name = batch.columns[position]? := by
  rw [Batch.getChild, findIdx?_firstOfName _ position field here first]
  rfl

theorem getChild_nodup (batch : Batch) (distinct : (batch.schema.fields.map FieldOf.name).Nodup)
    (position : Nat) (field : Field) (here : batch.schema.fields[position]? = some field) :
    batch.getChild field.name = batch.columns[position]? :=
  getChild_firstOfName batch position field here (firstOfName_of_nodup _ distinct position)

end VgiWorker.Arrow
