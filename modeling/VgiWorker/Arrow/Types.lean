import VgiWorker.Js.Number
import VgiWorker.Js.OrderedMap

/-!
# Arrow schemas and batches

Types, fields and record batches as the Arrow facade presents them. A cell is
the canonical value `readCanonicalValue` gives for it.
-/

set_option autoImplicit false

namespace VgiWorker.Arrow

open VgiWorker.Js

inductive DateUnit where
  | day
  | millisecond
  deriving DecidableEq

inductive TimeUnit where
  | second
  | millisecond
  | microsecond
  | nanosecond
  deriving DecidableEq

inductive IntervalUnit where
  | yearMonth
  | dayTime
  | monthDayNano
  deriving DecidableEq

inductive UnionMode where
  | sparse
  | dense
  deriving DecidableEq

inductive Precision where
  | half
  | single
  | double
  deriving DecidableEq

abbrev Metadata := OrderedMap Text Text

structure FieldOf (Ty : Type) where
  name : Text
  type : Ty
  nullable : Bool
  metadata : Metadata

inductive DataType where
  | null
  | int (bitWidth : Nat) (signed : Bool)
  | float (precision : Precision)
  | binary
  | utf8
  | bool
  | decimal (bitWidth precision : Nat) (scale : Int)
  | date (unit : DateUnit)
  | time (unit : TimeUnit) (bitWidth : Nat)
  | timestamp (unit : TimeUnit) (timezone : Option Text)
  | interval (unit : IntervalUnit)
  | list (children : List (FieldOf DataType))
  | struct (children : List (FieldOf DataType))
  | union (mode : UnionMode) (typeIds : List Int) (children : List (FieldOf DataType))
  | fixedSizeBinary (byteWidth : Nat)
  | fixedSizeList (listSize : Nat) (children : List (FieldOf DataType))
  | map (keysSorted : Bool) (children : List (FieldOf DataType))
  | duration (unit : TimeUnit)
  | largeBinary
  | largeUtf8
  | dictionary (id : Int) (dictionary indices : DataType) (ordered : Bool)

abbrev Field := FieldOf DataType

structure Schema where
  fields : List Field
  metadata : Metadata

namespace DataType

def isNull : DataType → Bool
  | .null => true
  | _ => false

def isInt : DataType → Bool
  | .int _ _ => true
  | _ => false

def isFloat : DataType → Bool
  | .float _ => true
  | _ => false

def isDecimal : DataType → Bool
  | .decimal _ _ _ => true
  | _ => false

def isBinary : DataType → Bool
  | .binary | .largeBinary => true
  | _ => false

def isUtf8 : DataType → Bool
  | .utf8 | .largeUtf8 => true
  | _ => false

def isBool : DataType → Bool
  | .bool => true
  | _ => false

def isDate : DataType → Bool
  | .date _ => true
  | _ => false

def isTime : DataType → Bool
  | .time _ _ => true
  | _ => false

def isTimestamp : DataType → Bool
  | .timestamp _ _ => true
  | _ => false

def isList : DataType → Bool
  | .list _ => true
  | _ => false

def isStruct : DataType → Bool
  | .struct _ => true
  | _ => false

/-- The child fields of a nested type, `undefined` on the others. -/
def children? : DataType → Option (List Field)
  | .list children | .struct children | .union _ _ children | .fixedSizeList _ children
  | .map _ children => some children
  | _ => none

def typeId : DataType → Int
  | .null => 1
  | .int _ _ => 2
  | .float _ => 3
  | .binary => 4
  | .utf8 => 5
  | .bool => 6
  | .decimal _ _ _ => 7
  | .date _ => 8
  | .time _ _ => 9
  | .timestamp _ _ => 10
  | .interval _ => 11
  | .list _ => 12
  | .struct _ => 13
  | .union _ _ _ => 14
  | .fixedSizeBinary _ => 15
  | .fixedSizeList _ _ => 16
  | .map _ _ => 17
  | .duration _ => 18
  | .largeBinary => 19
  | .largeUtf8 => 20
  | .dictionary _ _ _ _ => -1

end DataType

def DateUnit.code : DateUnit → Nat
  | .day => 0
  | .millisecond => 1

def TimeUnit.code : TimeUnit → Nat
  | .second => 0
  | .millisecond => 1
  | .microsecond => 2
  | .nanosecond => 3

def IntervalUnit.code : IntervalUnit → Nat
  | .yearMonth => 0
  | .dayTime => 1
  | .monthDayNano => 2

def UnionMode.code : UnionMode → Nat
  | .sparse => 0
  | .dense => 1

def Precision.code : Precision → Nat
  | .half => 0
  | .single => 1
  | .double => 2

def joinText (separator : Text) : List Text → Text
  | [] => []
  | [part] => part
  | part :: rest => part ++ separator ++ joinText separator rest

mutual

/-- Stable structural identity of a type, usable for equality. -/
def typeSignature : DataType → Text
  | .int bitWidth signed => text "int" ++ Number.decimal bitWidth ++ if signed then [] else text "u"
  | .float precision => text "float" ++ Number.decimal precision.code
  | .decimal bitWidth precision scale =>
      text "decimal" ++ Number.decimal bitWidth ++ text "(" ++ Number.decimal precision ++
        text "," ++ Number.decimalInt scale ++ text ")"
  | .date unit => text "8[" ++ Number.decimal unit.code ++ text "]"
  | .time unit _ => text "9[" ++ Number.decimal unit.code ++ text "]"
  | .duration unit => text "18[" ++ Number.decimal unit.code ++ text "]"
  | .timestamp unit timezone =>
      text "ts[" ++ Number.decimal unit.code ++ text "," ++ timezone.getD [] ++ text "]"
  | .interval unit => text "iv[" ++ Number.decimal unit.code ++ text "]"
  | .fixedSizeBinary byteWidth => text "fsb(" ++ Number.decimal byteWidth ++ text ")"
  | .fixedSizeList listSize children =>
      text "fsl(" ++ Number.decimal listSize ++ text "," ++ childSignatures children ++ text ")"
  | .list children => text "12<" ++ childSignatures children ++ text ">"
  | .struct children => text "13<" ++ childSignatures children ++ text ">"
  | .map _ children => text "17<" ++ childSignatures children ++ text ">"
  | .union mode _ children =>
      text "union(" ++ Number.decimal mode.code ++ text "," ++ childSignatures children ++ text ")"
  | .dictionary _ dictionary indices ordered =>
      text "dict(" ++ typeSignature dictionary ++ text "," ++ typeSignature indices ++ text "," ++
        (if ordered then text "true" else text "false") ++ text ")"
  | .null => text "1"
  | .binary => text "4"
  | .utf8 => text "5"
  | .bool => text "6"
  | .largeBinary => text "19"
  | .largeUtf8 => text "20"

def childSignatures : List (FieldOf DataType) → Text
  | [] => []
  | [child] => childSignature child
  | child :: rest => childSignature child ++ text "," ++ childSignatures rest

def childSignature : FieldOf DataType → Text
  | ⟨name, type, _, _⟩ => name ++ text ":" ++ typeSignature type

end

/-- The canonical value of a cell. -/
inductive Value where
  | null
  | bool (value : Bool)
  | number (value : Number)
  | bigint (value : Int)
  | string (value : Text)
  | bytes (value : Bytes)
  | array (elements : List Value)
  | object (entries : List (Text × Value))

abbrev Column := List Value

/-- A record batch; the metadata is the message's own. -/
structure Batch where
  schema : Schema
  columns : List Column
  numRows : Nat
  metadata : Option Metadata

namespace Batch

def getChildAt (batch : Batch) (index : Nat) : Option Column :=
  batch.columns[index]?

end Batch

def readCanonicalValue (column : Column) (row : Nat) : Value :=
  column[row]?.getD .null

end VgiWorker.Arrow
