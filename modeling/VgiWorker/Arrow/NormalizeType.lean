import VgiWorker.Arrow.LibraryTypes

/-!
# Normalised types

A type object of either library rebuilt with flechette's own constructors, and the
arrow-js spelling of signedness added to a decoded type.
-/

set_option autoImplicit false

namespace VgiWorker.Arrow.Library

open VgiWorker.Js

/-! ## The spelling of signedness -/

def aliasProperties (type : Properties) : Properties :=
  if type.typeId = 2 ∧ type.isSigned = none then { type with isSigned := type.signed } else type

mutual

/-- Every integer type within answers `isSigned`. -/
def aliasIntSigned : TypeObject → TypeObject
  | .plain type => .plain (aliasProperties type)
  | .parent type children => .parent (aliasProperties type) (normalizeFields children)
  | .encoded type dictionary indices =>
      .encoded (aliasProperties type) (aliasIntSigned dictionary) (aliasIntSigned indices)

def normalizeFields : List (FieldOf TypeObject) → List (FieldOf TypeObject)
  | [] => []
  | ⟨name, type, nullable, metadata⟩ :: rest =>
      ⟨name, aliasIntSigned type, nullable, metadata⟩ :: normalizeFields rest

end

/-! ## flechette's constructors -/

/-- The width that a time of a unit has. -/
def timeBitWidth : TimeUnit → Nat
  | .second | .millisecond => 32
  | .microsecond | .nanosecond => 64

def integerWidths : List Nat := [8, 16, 32, 64]

def decimalWidths : List Nat := [32, 64, 128, 256]

def nativeLeaf (type : LeafType) : TypeObject :=
  .plain (leafProperties (.flechette false) type)

def nativeParent (kind : NestKind) (children : List (FieldOf TypeObject)) : TypeObject :=
  .parent (nestProperties (.flechette false) kind) children

/-- flechette's type constructors, with what each of them builds. A map's entries are put
in a field that the constructor makes itself. -/
structure Flechette where
  nullType : TypeObject
  bool : TypeObject
  int : Option Nat → Bool → TypeObject
  float : Option Nat → TypeObject
  utf8 : TypeObject
  largeUtf8 : TypeObject
  binary : TypeObject
  largeBinary : TypeObject
  fixedSizeBinary : Option Nat → TypeObject
  decimal : Option Nat → Option Int → Nat → TypeObject
  date : Option Nat → TypeObject
  time : Option Nat → TypeObject
  timestamp : Option Nat → Option Text → TypeObject
  duration : Option Nat → TypeObject
  interval : Option Nat → TypeObject
  list : FieldOf TypeObject → TypeObject
  largeList : FieldOf TypeObject → TypeObject
  fixedSizeList : FieldOf TypeObject → Option Nat → TypeObject
  struct : List (FieldOf TypeObject) → TypeObject
  map : FieldOf TypeObject → FieldOf TypeObject → Bool → TypeObject
  dictionary : TypeObject → TypeObject → Bool → Option Int → TypeObject
  union : Option Nat → List (FieldOf TypeObject) → Option (List Int) → TypeObject
  entriesName : Text
  entriesNullable : Bool
  entriesMetadata : Metadata
  nullType_eq : nullType = nativeLeaf .null
  bool_eq : bool = nativeLeaf .bool
  int_eq : ∀ bitWidth ∈ integerWidths, ∀ signed,
    int (some bitWidth) signed = nativeLeaf (.int bitWidth signed)
  float_eq : ∀ precision : Precision, float (some precision.code) = nativeLeaf (.float precision)
  utf8_eq : utf8 = nativeLeaf .utf8
  largeUtf8_eq : largeUtf8 = nativeLeaf .largeUtf8
  binary_eq : binary = nativeLeaf .binary
  largeBinary_eq : largeBinary = nativeLeaf .largeBinary
  fixedSizeBinary_eq : ∀ byteWidth,
    fixedSizeBinary (some byteWidth) = nativeLeaf (.fixedSizeBinary byteWidth)
  decimal_eq : ∀ bitWidth ∈ decimalWidths, ∀ precision scale,
    decimal (some precision) (some scale) bitWidth = nativeLeaf (.decimal bitWidth precision scale)
  date_eq : ∀ unit : DateUnit, date (some unit.code) = nativeLeaf (.date unit)
  time_eq : ∀ unit : TimeUnit, time (some unit.code) = nativeLeaf (.time unit (timeBitWidth unit))
  timestamp_eq : ∀ (unit : TimeUnit) timezone,
    timestamp (some unit.code) timezone = nativeLeaf (.timestamp unit timezone)
  duration_eq : ∀ unit : TimeUnit, duration (some unit.code) = nativeLeaf (.duration unit)
  interval_eq : ∀ unit : IntervalUnit, interval (some unit.code) = nativeLeaf (.interval unit)
  list_eq : ∀ item, list item = nativeParent .list [item]
  largeList_eq : ∀ item, largeList item = nativeParent .largeList [item]
  fixedSizeList_eq : ∀ item size,
    fixedSizeList item (some size) = nativeParent (.fixedSizeList size) [item]
  struct_eq : ∀ fields, struct fields = nativeParent .struct fields
  map_eq : ∀ key value keysSorted,
    map key value keysSorted = nativeParent (.map keysSorted)
      [⟨entriesName, nativeParent .struct [key, value], entriesNullable, entriesMetadata⟩]
  dictionary_eq : ∀ type indices ordered id,
    dictionary type indices ordered (some id) =
      .encoded (dictionaryProperties (.flechette false) id ordered) type indices
  union_eq : ∀ (mode : UnionMode) fields typeIds,
    union (some mode.code) fields (some typeIds) = nativeParent (.union mode typeIds) fields

section

variable (flechette : Flechette)

/-- What the cases of the switch read besides the object's own properties; nothing where
reading it throws. -/
structure Parts where
  first : Option (FieldOf TypeObject)
  all : Option (List (FieldOf TypeObject))
  keyAndValue : Option (FieldOf TypeObject × FieldOf TypeObject)
  dictionary : Option TypeObject
  indices : Option TypeObject

/-- The switch on the type id, over the parts rebuilt already. -/
def rebuild (self : TypeObject) (type : Properties) (parts : Parts) : Option TypeObject :=
  if type.typeId = 1 then some flechette.nullType
  else if type.typeId = 6 then some flechette.bool
  else if type.typeId = 2 then
    some (aliasIntSigned
      (flechette.int type.bitWidth ((type.isSigned <|> type.signed).getD true)))
  else if type.typeId = 3 then some (flechette.float type.precision)
  else if type.typeId = 4 then some flechette.binary
  else if type.typeId = 19 then some flechette.largeBinary
  else if type.typeId = 5 then some flechette.utf8
  else if type.typeId = 20 then some flechette.largeUtf8
  else if type.typeId = 15 then some (flechette.fixedSizeBinary (type.byteWidth <|> type.stride))
  else if type.typeId = 7 then
    some (flechette.decimal type.precision type.scale (type.bitWidth.getD 128))
  else if type.typeId = 8 then some (flechette.date type.unit)
  else if type.typeId = 9 then some (flechette.time type.unit)
  else if type.typeId = 10 then some (flechette.timestamp type.unit type.timezone)
  else if type.typeId = 18 then some (flechette.duration type.unit)
  else if type.typeId = 11 then some (flechette.interval type.unit)
  else if type.typeId = 12 then parts.first.map flechette.list
  else if type.typeId = 21 then parts.first.map flechette.largeList
  else if type.typeId = 16 then
    -- arrow-js calls the width `listSize`, flechette calls it `stride`.
    parts.first.map fun item => flechette.fixedSizeList item (type.listSize <|> type.stride)
  else if type.typeId = 13 then parts.all.map flechette.struct
  else if type.typeId = 17 then
    -- The entries field itself is left to the constructor.
    parts.keyAndValue.map fun (key, value) =>
      flechette.map key value (type.keysSorted.getD false)
  else if type.typeId = -1 then
    parts.dictionary.bind fun dictionary => parts.indices.map fun indices =>
      flechette.dictionary dictionary indices ((type.ordered <|> type.isOrdered).getD false)
        type.id
  else if type.typeId = 14 then
    parts.all.map fun fields => flechette.union type.mode fields type.typeIds
  else some self

mutual

/-- The type rebuilt as a flechette type, or nothing where that throws. -/
def toFlechetteType : TypeObject → Option TypeObject
  | .plain type =>
      rebuild flechette (.plain type) type
        ⟨none, none, none, some flechette.nullType, some flechette.nullType⟩
  | .parent type children =>
      rebuild flechette (.parent type children) type
        ⟨firstField children, fFields children, entryFields children, some flechette.nullType,
          some flechette.nullType⟩
  | .encoded type dictionary indices =>
      rebuild flechette (.encoded type dictionary indices) type
        ⟨none, none, none, toFlechetteType dictionary, toFlechetteType indices⟩

def fField : FieldOf TypeObject → Option (FieldOf TypeObject)
  | ⟨name, type, nullable, metadata⟩ =>
      (toFlechetteType type).map fun type => ⟨name, type, nullable, metadata⟩

def firstField : List (FieldOf TypeObject) → Option (FieldOf TypeObject)
  | [] => none
  | child :: _ => fField child

def fFields : List (FieldOf TypeObject) → Option (List (FieldOf TypeObject))
  | [] => some []
  | child :: rest => (fField child).bind fun child => (fFields rest).map (child :: ·)

/-- The key and the value of a map's entries, its first child. -/
def entryFields : List (FieldOf TypeObject) → Option (FieldOf TypeObject × FieldOf TypeObject)
  | [] => none
  | ⟨_, type, _, _⟩ :: _ => keyAndValue type

def keyAndValue : TypeObject → Option (FieldOf TypeObject × FieldOf TypeObject)
  | .plain _ | .encoded _ _ _ => none
  | .parent _ children => firstTwo children

def firstTwo : List (FieldOf TypeObject) → Option (FieldOf TypeObject × FieldOf TypeObject)
  | key :: value :: _ => (fField key).bind fun key => (fField value).map (key, ·)
  | _ => none

end

end

end VgiWorker.Arrow.Library
