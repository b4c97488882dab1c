import VgiWorker.Arrow.NestedTypes
import VgiWorker.Arrow.Codec
import VgiWorker.Arrow.StoredIntegers
import VgiWorker.Js.OrderedMapRuns

/-!
# Canonical values

The values a reader can give for a column of a type.
-/

set_option autoImplicit false

namespace VgiWorker.Arrow

open VgiWorker.Js

/-- The object of some members; the last of two equal names counts. -/
def objectOf {α : Type} (members : List (Text × α)) : List (Text × α) :=
  (OrderedMap.ofEntries members).entries

theorem lookup_objectOf {α : Type} (members : List (Text × α)) (key : Text)
    (isKey : key ∈ members.map Prod.fst) :
    ∃ value, (key, value) ∈ members ∧ lookupEntry (objectOf members) key = some value := by
  have found : (OrderedMap.lastOf members key).isSome = true := by
    rw [OrderedMap.lastOf, lookupEntry_isSome, List.map_reverse, List.mem_reverse]
    exact isKey
  obtain ⟨value, isLast⟩ := Option.isSome_iff_exists.mp found
  refine ⟨value, List.mem_reverse.mp (mem_of_lookupEntry _ key value isLast), ?_⟩
  have whole := OrderedMap.get?_setAll .empty members key
  rw [isLast, Option.some_or] at whole
  exact whole

/-- An object is determined by its names and what they stand for. -/
theorem objectOf_reread {α : Type} (members : List (Text × α)) (names : List Text)
    (named : members.map Prod.fst = names) (held : Text → α)
    (holds : ∀ key ∈ names, lookupEntry (objectOf members) key = some (held key)) :
    objectOf (names.map fun key => (key, held key)) = objectOf members := by
  have sameNames : (names.map fun key => (key, held key)).map Prod.fst = members.map Prod.fst := by
    rw [List.map_map, named]
    exact List.map_id names
  refine congrArg OrderedMap.entries ((OrderedMap.setAll_eq_iff _ _ sameNames).mpr ?_)
  intro key isKey
  rw [sameNames, named] at isKey
  have last (entries : List (Text × α)) (isName : key ∈ entries.map Prod.fst) :
      OrderedMap.lastOf entries key = lookupEntry (objectOf entries) key := by
    obtain ⟨value, isLast⟩ : ∃ value, OrderedMap.lastOf entries key = some value := by
      rw [← Option.isSome_iff_exists, OrderedMap.lastOf, lookupEntry_isSome, List.map_reverse,
        List.mem_reverse]
      exact isName
    have whole := OrderedMap.get?_setAll .empty entries key
    rw [isLast, Option.some_or] at whole
    rw [isLast]
    exact whole.symm
  rw [last _ (sameNames ▸ named ▸ isKey), last _ (named ▸ isKey), holds key isKey]
  obtain ⟨value, member, found⟩ := lookup_objectOf (names.map fun key => (key, held key)) key
    (sameNames ▸ named ▸ isKey)
  obtain ⟨other, _, same⟩ := List.mem_map.mp member
  cases same
  exact found

/-- A value, other than null, of a type without children. -/
def CanonicalLeaf : DataType → Value → Prop
  | .bool, value => ∃ held, value = .bool held
  | .int bitWidth signed, value => ∃ held : Int,
      value = (if bitWidth = 64 then .bigint held else .number (Number.ofInt held)) ∧
        (intRange bitWidth signed).1 ≤ held ∧ held ≤ (intRange bitWidth signed).2
  | .float _, value => ∃ held, value = .number held
  | .utf8, value | .largeUtf8, value => ∃ held, value = .string held
  | .binary, value | .largeBinary, value => ∃ held, value = .bytes held
  | .fixedSizeBinary byteWidth, value => ∃ held, value = .bytes held ∧ held.length = byteWidth
  | .decimal _ _ _, value => ∃ held, value = .bigint held
  | .date .day, value => ∃ held, value = .number (Number.ofInt held) ∧ InSigned 32 held
  | .date .millisecond, value => ∃ held, value = .bigint held
  | .time _ bitWidth, value => ∃ held : Int,
      value = (if bitWidth = 64 then .bigint held else .number (Number.ofInt held)) ∧
        (bitWidth ≠ 64 → InSigned 32 held)
  | .timestamp _ _, value | .duration _, value => ∃ held, value = .bigint held
  -- The readers hand the values of intervals and unions on as they are.
  | .interval _, _ => True
  | _, _ => False

mutual

def CanonicalOf : DataType → Value → Prop
  | .list children, value => CanonicalItems children none value
  | .fixedSizeList listSize children, value => CanonicalItems children (some listSize) value
  | .map _ children, value => CanonicalPairs children value
  | .struct children, value => value = .null ∨
      ∃ members, CanonicalMembers children members ∧ value = .object (objectOf members)
  | .union _ _ _, _ => True
  | .dictionary _ dictionary _ _, value => CanonicalOf dictionary value
  | type, value => value = .null ∨ CanonicalLeaf type value

/-- The items of a list, as many as a fixed size allows. -/
def CanonicalItems : List (FieldOf DataType) → Option Nat → Value → Prop
  | ⟨_, type, _, _⟩ :: _, listSize, value => value = .null ∨
      ∃ items, value = .array items ∧ (∀ count, listSize = some count → items.length = count) ∧
        ∀ item ∈ items, CanonicalOf type item
  | [], _, _ => False

def CanonicalPairs : List (FieldOf DataType) → Value → Prop
  | ⟨_, .struct (⟨_, keyType, _, _⟩ :: ⟨_, valueType, _, _⟩ :: _), _, _⟩ :: _, value =>
      value = .null ∨ ∃ pairs : List (Value × Value),
        value = .array (pairs.map fun pair => .array [pair.1, pair.2]) ∧
          ∀ pair ∈ pairs, CanonicalOf keyType pair.1 ∧ CanonicalOf valueType pair.2
  | _, _ => False

def CanonicalMembers : List (FieldOf DataType) → List (Text × Value) → Prop
  | [], members => members = []
  | ⟨name, type, _, _⟩ :: rest, members =>
      ∃ value others, members = (name, value) :: others ∧ CanonicalOf type value ∧
        CanonicalMembers rest others

end

mutual

/-- The children of one struct that share a name share a type, at every depth. -/
def SameNamedAlike : DataType → Prop
  | .struct children =>
      (∀ left ∈ children, ∀ right ∈ children, left.name = right.name → left.type = right.type) ∧
        AllAlike children
  | .list children | .fixedSizeList _ children | .map _ children => AllAlike children
  | .dictionary _ dictionary _ _ => SameNamedAlike dictionary
  | _ => True

def AllAlike : List (FieldOf DataType) → Prop
  | [] => True
  | ⟨_, type, _, _⟩ :: rest => SameNamedAlike type ∧ AllAlike rest

end

theorem allAlike_of_mem (fields : List Field) (all : AllAlike fields) (field : Field)
    (member : field ∈ fields) : SameNamedAlike field.type := by
  induction fields with
  | nil => cases member
  | cons first rest ih =>
      obtain ⟨name, type, nullable, metadata⟩ := first
      rw [AllAlike] at all
      cases member with
      | head => exact all.1
      | tail _ member => exact ih all.2 member

theorem canonicalMembers_names (children : List Field) (members : List (Text × Value))
    (canonical : CanonicalMembers children members) :
    members.map Prod.fst = children.map FieldOf.name := by
  induction children generalizing members with
  | nil =>
      rw [CanonicalMembers] at canonical
      rw [canonical]
      rfl
  | cons child rest ih =>
      obtain ⟨name, type, nullable, metadata⟩ := child
      rw [CanonicalMembers] at canonical
      obtain ⟨value, others, rfl, _, canonicalRest⟩ := canonical
      rw [List.map_cons, List.map_cons, ih others canonicalRest]

/-- A member is of the type of one of the children of its name. -/
theorem canonicalMembers_mem (children : List Field) (members : List (Text × Value))
    (canonical : CanonicalMembers children members) (entry : Text × Value)
    (member : entry ∈ members) :
    ∃ child ∈ children, child.name = entry.1 ∧ CanonicalOf child.type entry.2 := by
  induction children generalizing members with
  | nil =>
      rw [CanonicalMembers] at canonical
      rw [canonical] at member
      cases member
  | cons child rest ih =>
      obtain ⟨name, type, nullable, metadata⟩ := child
      rw [CanonicalMembers] at canonical
      obtain ⟨value, others, rfl, canonicalValue, canonicalRest⟩ := canonical
      rcases List.mem_cons.mp member with rfl | later
      · exact ⟨_, List.mem_cons_self, rfl, canonicalValue⟩
      · obtain ⟨found, isChild, name, canonicalEntry⟩ := ih others canonicalRest later
        exact ⟨found, List.mem_cons_of_mem _ isChild, name, canonicalEntry⟩

/-- The member of a struct value, a missing one being null. -/
def cellMember (members : List (Text × Value)) (name : Text) : Value :=
  (lookupEntry members name).getD .null

/-- Where the children of a name are of one type, a struct value holds a canonical value for each,
and nothing else. -/
theorem canonical_struct (children : List Field)
    (alike : ∀ left ∈ children, ∀ right ∈ children, left.name = right.name →
      left.type = right.type)
    (members : List (Text × Value)) (canonical : CanonicalMembers children members) :
    (∀ child ∈ children,
      CanonicalOf child.type (cellMember (objectOf members) child.name)) ∧
      objectOf (children.map fun child =>
        (child.name, cellMember (objectOf members) child.name)) = objectOf members := by
  have names := canonicalMembers_names children members canonical
  have found (name : Text) (isName : name ∈ children.map FieldOf.name) :
      ∃ value, (name, value) ∈ members ∧
        lookupEntry (objectOf members) name = some value :=
    lookup_objectOf members name (names ▸ isName)
  constructor
  · intro child member
    obtain ⟨value, isMember, holds⟩ := found child.name (List.mem_map_of_mem member)
    obtain ⟨other, isOther, sameName, canonicalValue⟩ :=
      canonicalMembers_mem children members canonical _ isMember
    rw [cellMember, holds, Option.getD_some, alike child member other isOther sameName.symm]
    exact canonicalValue
  · have reread := objectOf_reread members (children.map FieldOf.name) names
      (cellMember (objectOf members)) fun key isKey => by
        obtain ⟨value, _, holds⟩ := found key isKey
        rw [cellMember, holds, Option.getD_some]
    rwa [List.map_map] at reread

end VgiWorker.Arrow
