import VgiWorker.Arrow.Types

/-!
# The types of the two libraries

Arrow types, and the objects that arrow-js and flechette have for them: the same type
ids and parameters, some of them under different property names.
-/

set_option autoImplicit false

namespace VgiWorker.Arrow.Library

open VgiWorker.Js

inductive LeafType where
  | null
  | int (bitWidth : Nat) (signed : Bool)
  | float (precision : Precision)
  | binary
  | utf8
  | bool
  | decimal (bitWidth precision : Nat) (scale : Int)
  | date (unit : DateUnit)
  | time (unit : TimeUnit) (bitWidth : Nat)
  | timestamp (unit : TimeUnit) (timezone : Option Text)
  | interval (unit : IntervalUnit)
  | fixedSizeBinary (byteWidth : Nat)
  | duration (unit : TimeUnit)
  | largeBinary
  | largeUtf8
  | binaryView
  | utf8View
  deriving DecidableEq

inductive NestKind where
  | list
  | struct
  | union (mode : UnionMode) (typeIds : List Int)
  | fixedSizeList (listSize : Nat)
  | map (keysSorted : Bool)
  | largeList
  | runEndEncoded
  | listView
  | largeListView
  deriving DecidableEq

inductive ArrowType where
  | leaf (type : LeafType)
  | nested (kind : NestKind) (children : List (FieldOf ArrowType))
  | dictionary (id : Int) (dictionary indices : ArrowType) (ordered : Bool)

/-! ## Type objects -/

/-- The own properties of a type object that are no types or fields. -/
structure Properties where
  typeId : Int
  bitWidth : Option Nat := none
  isSigned : Option Bool := none
  signed : Option Bool := none
  precision : Option Nat := none
  scale : Option Int := none
  unit : Option Nat := none
  timezone : Option Text := none
  byteWidth : Option Nat := none
  stride : Option Nat := none
  listSize : Option Nat := none
  mode : Option Nat := none
  typeIds : Option (List Int) := none
  keysSorted : Option Bool := none
  ordered : Option Bool := none
  isOrdered : Option Bool := none
  id : Option Int := none
  deriving DecidableEq

/-- A type object: one without children, one with an array of them, or a dictionary's. -/
inductive TypeObject where
  | plain (properties : Properties)
  | parent (properties : Properties) (children : List (FieldOf TypeObject))
  | encoded (properties : Properties) (dictionary indices : TypeObject)

def TypeObject.properties : TypeObject → Properties
  | .plain properties | .parent properties _ | .encoded properties _ _ => properties

/-- Whose property names an object has; flechette's integers may carry arrow-js's
`isSigned` beside their own `signed`. -/
inductive Spelling where
  | arrowJs
  | flechette (aliased : Bool)
  deriving DecidableEq

def LeafType.typeId : LeafType → Int
  | .null => 1
  | .int _ _ => 2
  | .float _ => 3
  | .binary => 4
  | .utf8 => 5
  | .bool => 6
  | .decimal _ _ _ => 7
  | .date _ => 8
  | .time _ _ => 9
  | .timestamp _ _ => 10
  | .interval _ => 11
  | .fixedSizeBinary _ => 15
  | .duration _ => 18
  | .largeBinary => 19
  | .largeUtf8 => 20
  | .binaryView => 23
  | .utf8View => 24

def NestKind.typeId : NestKind → Int
  | .list => 12
  | .struct => 13
  | .union _ _ => 14
  | .fixedSizeList _ => 16
  | .map _ => 17
  | .largeList => 21
  | .runEndEncoded => 22
  | .listView => 25
  | .largeListView => 26

def leafProperties (spelling : Spelling) (type : LeafType) : Properties :=
  match type with
  | .int bitWidth signed =>
      match spelling with
      | .arrowJs => { typeId := type.typeId, bitWidth := some bitWidth, isSigned := some signed }
      | .flechette aliased =>
          { typeId := type.typeId, bitWidth := some bitWidth, signed := some signed,
            isSigned := if aliased then some signed else none }
  | .float precision => { typeId := type.typeId, precision := some precision.code }
  | .decimal bitWidth precision scale =>
      { typeId := type.typeId, bitWidth := some bitWidth, precision := some precision,
        scale := some scale }
  | .date unit => { typeId := type.typeId, unit := some unit.code }
  | .time unit bitWidth =>
      { typeId := type.typeId, unit := some unit.code, bitWidth := some bitWidth }
  | .timestamp unit timezone =>
      { typeId := type.typeId, unit := some unit.code, timezone := timezone }
  | .interval unit => { typeId := type.typeId, unit := some unit.code }
  | .fixedSizeBinary byteWidth =>
      match spelling with
      | .arrowJs => { typeId := type.typeId, byteWidth := some byteWidth }
      | .flechette _ => { typeId := type.typeId, stride := some byteWidth }
  | .duration unit => { typeId := type.typeId, unit := some unit.code }
  | _ => { typeId := type.typeId }

def nestProperties (spelling : Spelling) (kind : NestKind) : Properties :=
  match kind with
  | .union mode typeIds =>
      { typeId := kind.typeId, mode := some mode.code, typeIds := some typeIds }
  | .fixedSizeList listSize =>
      match spelling with
      | .arrowJs => { typeId := kind.typeId, listSize := some listSize }
      | .flechette _ => { typeId := kind.typeId, stride := some listSize }
  | .map keysSorted => { typeId := kind.typeId, keysSorted := some keysSorted }
  | _ => { typeId := kind.typeId }

def dictionaryProperties (spelling : Spelling) (id : Int) (ordered : Bool) : Properties :=
  match spelling with
  | .arrowJs => { typeId := -1, id := some id, isOrdered := some ordered }
  | .flechette _ => { typeId := -1, id := some id, ordered := some ordered }

mutual

/-- The object that a library has for a type. -/
def object (spelling : Spelling) : ArrowType → TypeObject
  | .leaf type => .plain (leafProperties spelling type)
  | .nested kind children => .parent (nestProperties spelling kind) (objects spelling children)
  | .dictionary id dictionary indices ordered =>
      .encoded (dictionaryProperties spelling id ordered) (object spelling dictionary)
        (object spelling indices)

def objects (spelling : Spelling) : List (FieldOf ArrowType) → List (FieldOf TypeObject)
  | [] => []
  | ⟨name, type, nullable, metadata⟩ :: rest =>
      ⟨name, object spelling type, nullable, metadata⟩ :: objects spelling rest

end

/-! ## Structure -/

mutual

/-- The type with nullability, metadata and dictionary ids forgotten. -/
def skeleton : ArrowType → ArrowType
  | .leaf type => .leaf type
  | .nested kind children => .nested kind (skeletons children)
  | .dictionary _ dictionary indices ordered =>
      .dictionary 0 (skeleton dictionary) (skeleton indices) ordered

def skeletons : List (FieldOf ArrowType) → List (FieldOf ArrowType)
  | [] => []
  | ⟨name, type, _, _⟩ :: rest => ⟨name, skeleton type, true, .empty⟩ :: skeletons rest

end

end VgiWorker.Arrow.Library
