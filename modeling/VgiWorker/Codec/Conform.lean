import VgiWorker.Arrow.NestedTypes
import VgiWorker.Protocol.Records

/-!
# Wire conformance

`conformRecord`: a list or map that was left out goes out empty, and no list item
or map value goes out null, whatever the nullability of its schema field.
-/

set_option autoImplicit false

namespace VgiWorker.Codec

open Js Arrow
open Protocol (Row optionalItemFields)

/-! ## Values as sequences -/

/-- `Array.from(value)`. -/
def arrayFrom : Rich → List Rich
  | .array items => items
  | .bytes value => value.map fun byte => .number (Number.ofNat byte.toNat)
  | .string value => (iterated value).map .string
  | _ => []

def isArray : Rich → Bool
  | .array _ => true
  | _ => false

def pairOf : Rich → Rich × Rich
  | .array items => (items[0]?.getD .null, items[1]?.getD .null)
  | .object members =>
      ((lookupEntry members (text "key")).getD .null, (lookupEntry members (text "value")).getD .null)
  | _ => (.null, .null)

/-- The entries of a map, from a list of pairs, the members of an object or what a text iterates
to. On the numbers of a binary value `[k, v]` throws: they are left out. -/
def mapPairs : Rich → List (Rich × Rich)
  | .array items => items.map pairOf
  | .object members => members.map fun member => (.string member.1, member.2)
  | .string value => (iterated value).map fun unit => (.string unit, .null)
  | _ => []

def pairArray (pair : Rich × Rich) : Rich :=
  .array [pair.1, pair.2]

def indexed (items : List Rich) : List (Text × Rich) :=
  items.zipIdx.map fun entry => (Number.decimal entry.2, entry.1)

/-- `{ ...value }`, by its entries. -/
def ownEntries : Rich → List (Text × Rich)
  | .object members => members
  | .array items => indexed items
  | .bytes value => indexed (value.map fun byte => .number (Number.ofNat byte.toNat))
  | .string value => indexed (value.map fun unit => .string [unit])
  | _ => []

/-- The members, with new values for some. -/
def setMembers (members replaced : List (Text × Rich)) : List (Text × Rich) :=
  replaced.foldl (fun members entry => setEntry members entry.1 entry.2) members

/-- What replaces a value that is handed back: nothing, but a NaN is not `===` itself. -/
def itself : Rich → Option Rich
  | .number .nan => some (.number .nan)
  | _ => none

/-! ## `conform.ts` -/

mutual

def hasContainer : DataType → Bool
  | .list _ => true
  | .map _ _ => true
  | .struct children => childHasContainer children
  | _ => false

def childHasContainer : List (FieldOf DataType) → Bool
  | [] => false
  | ⟨_, type, _, _⟩ :: rest => hasContainer type || childHasContainer rest

end

def isContainer : DataType → Bool
  | .list _ | .map _ _ => true
  | _ => false

/-- What a struct child holds that may not be null and was never set. -/
def emptyContainer (type : DataType) : Rich :=
  if isContainer type then .array [] else .null

mutual

def zeroValue : DataType → Rich
  | .dictionary _ dictionary _ _ => zeroValue dictionary
  | .utf8 => .string []
  | .largeUtf8 => .string []
  | .binary => .bytes []
  | .largeBinary => .bytes []
  | .bool => .bool false
  | .int bitWidth _ => if bitWidth = 64 then .bigint 0 else .number Number.zero
  | .float _ => .number Number.zero
  | .list _ => .array []
  | .map _ _ => .array []
  | .struct children => .object (setMembers [] (zeroMembers children))
  | _ => .null

def zeroMembers : List (FieldOf DataType) → List (Text × Rich)
  | [] => []
  | ⟨name, type, nullable, _⟩ :: rest =>
      (name, if nullable then .null else emptyContainer type) :: zeroMembers rest

end

/-- What a slot holds instead, given what a value that is present gives way to. -/
def conformSlot (type : DataType) (nullable : Bool) (present : Rich → Option Rich) :
    Option Rich → Option Rich
  | none => if nullable then some .null else if isContainer type then some (.array []) else none
  | some .null => if !nullable && isContainer type then some (.array []) else none
  | some value => present value

/-- What a list item or a map value holds instead; a null one gives way to the zero value. -/
def conformElement (type : DataType) (mayBeNull : Bool) (present : Rich → Option Rich)
    (value : Rich) : Option Rich :=
  if isRichNull value then
    if mayBeNull || isRichNull (zeroValue type) then none else some (zeroValue type)
  else present value

/-- The items, with the replacements made. -/
def replaceItems (items : List Rich) (next : Rich → Option Rich) : List Rich :=
  items.map fun item => (next item).getD item

/-- The entries, with the values replaced. -/
def replaceValues (pairs : List (Rich × Rich)) (next : Rich → Option Rich) : List (Rich × Rich) :=
  pairs.map fun pair => (pair.1, (next pair.2).getD pair.2)

mutual

/-- What replaces a value that is neither null nor missing, if it is not handed back itself. -/
def conformPresent : DataType → Rich → Text → Option Rich
  | .list children, value, name => conformItems children value name
  | .map _ children, value, name => conformPairs children value name
  | .struct children, value, _ =>
      if childHasContainer children then
        match conformMembers children (ownEntries value) with
        | [] => itself value
        | replaced => some (.object (setMembers (ownEntries value) replaced))
      else itself value
  | _, value, _ => itself value

def conformItems : List (FieldOf DataType) → Rich → Text → Option Rich
  | ⟨_, type, _, _⟩ :: _, value, name =>
      let next := conformElement type (decide (name ∈ optionalItemFields)) fun item =>
        conformPresent type item name
      if isArray value && (arrayFrom value).all fun item => (next item).isNone then none
      else some (.array (replaceItems (arrayFrom value) next))
  | [], value, _ => itself value

def conformPairs : List (FieldOf DataType) → Rich → Text → Option Rich
  | ⟨_, .struct (_ :: ⟨_, valueType, _, _⟩ :: _), _, _⟩ :: _, value, name =>
      let next := conformElement valueType false fun held => conformPresent valueType held name
      if (mapPairs value).all fun pair => (next pair.2).isNone then none
      else some (.array ((replaceValues (mapPairs value) next).map pairArray))
  | _, value, _ => itself value

/-- The members that are replaced, each read off the value as it came. -/
def conformMembers : List (FieldOf DataType) → List (Text × Rich) → List (Text × Rich)
  | [], _ => []
  | ⟨name, type, nullable, _⟩ :: rest, members =>
      match conformSlot type nullable (fun value => conformPresent type value name)
          (lookupEntry members name) with
      | some next => (name, next) :: conformMembers rest members
      | none => conformMembers rest members

end

/-- What replaces the value of a slot; a missing value is `none`. -/
def conformValue (type : DataType) (value : Option Rich) (nullable : Bool) (name : Text) :
    Option Rich :=
  conformSlot type nullable (fun value => conformPresent type value name) value

def conformRecord (schema : Schema) (record : Row) : Row :=
  setMembers record (conformMembers schema.fields record)

/-! ## Types that contain others -/

/-- The value type of a map whose entry has a key and a value. -/
def mapValueType? : List (FieldOf DataType) → Option DataType
  | ⟨_, .struct (_ :: ⟨_, valueType, _, _⟩ :: _), _, _⟩ :: _ => some valueType
  | _ => none

private theorem sizeOf_mapValueType? (children : List Field) (valueType : DataType)
    (isValue : mapValueType? children = some valueType) :
    sizeOf valueType < sizeOf children := by
  unfold mapValueType? at isValue
  split at isValue
  · cases isValue
    simp
    omega
  · cases isValue

/-- Induction over the types that records look into. -/
theorem containerInduction {holds : DataType → Prop}
    (list : ∀ item rest, holds item.type → holds (.list (item :: rest)))
    (emptyList : holds (.list []))
    (map : ∀ keysSorted children valueType, mapValueType? children = some valueType →
      holds valueType → holds (.map keysSorted children))
    (otherMap : ∀ keysSorted children, mapValueType? children = none →
      holds (.map keysSorted children))
    (struct : ∀ children, (∀ child ∈ children, holds child.type) → holds (.struct children))
    (other : ∀ type, isContainer type = false → type.isStruct = false → holds type)
    (type : DataType) : holds type := by
  induction size : sizeOf type using Nat.strongRecOn generalizing type with
  | ind n ih =>
    subst size
    cases type with
    | list children =>
        cases children with
        | nil => exact emptyList
        | cons item rest =>
            have smaller := sizeOf_childType item (item :: rest) List.mem_cons_self
            exact list item rest (ih (sizeOf item.type)
              (Nat.lt_trans smaller (by simp)) item.type rfl)
    | map keysSorted children =>
        cases isValue : mapValueType? children with
        | none => exact otherMap keysSorted children isValue
        | some valueType =>
            have smaller := sizeOf_mapValueType? children valueType isValue
            exact map keysSorted children valueType isValue (ih (sizeOf valueType)
              (Nat.lt_trans smaller (by simp)) valueType rfl)
    | struct children =>
        refine struct children fun child member => ?_
        have smaller := sizeOf_childType child children member
        exact ih (sizeOf child.type) (Nat.lt_trans smaller (by simp)) child.type rfl
    | _ => exact other _ rfl rfl

end VgiWorker.Codec
