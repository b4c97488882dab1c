import VgiWorker.Codec.Conformance
import VgiWorker.Codec.KeyOrder

/-!
# Insertion order

Two records that differ only in the order of map entries, at any depth, go out
the same.
-/

set_option autoImplicit false

namespace VgiWorker.Codec

open Js Arrow
open Protocol (Row rowMember optionalItemFields)
open KeyedSort (keyed map_mergeSort_keyed)

/-! ## Maps at any depth -/

/-- The values whose entries a map is made of. -/
def isEntries : Rich → Bool
  | .array _ | .object _ => true
  | _ => false

mutual

/-- The same value but for the order of the entries of maps. -/
def Permuted : DataType → Rich → Rich → Prop
  | .list children, left, right =>
      left = right ∨ ∃ lefts rights, left = .array lefts ∧ right = .array rights ∧
        PermutedItems children lefts rights
  | .map _ children, left, right =>
      left = right ∨ isEntries left = true ∧ isEntries right = true ∧
        PermutedPairs children (mapPairs left) (mapPairs right)
  | .struct children, left, right =>
      left = right ∨ ∃ lefts rights, left = .object lefts ∧ right = .object rights ∧
        PermutedMembers children lefts rights
  | _, left, right => left = right

def PermutedItems : List (FieldOf DataType) → List Rich → List Rich → Prop
  | ⟨_, type, _, _⟩ :: _, lefts, rights =>
      List.Forall₂ (fun left right => Permuted type left right) lefts rights
  | [], lefts, rights => lefts = rights

def PermutedPairs :
    List (FieldOf DataType) → List (Rich × Rich) → List (Rich × Rich) → Prop
  | ⟨_, .struct (_ :: ⟨_, valueType, _, _⟩ :: _), _, _⟩ :: _, lefts, rights =>
      ∃ middle, List.Forall₂
        (fun left right => left.1 = right.1 ∧ Permuted valueType left.2 right.2) lefts middle ∧
          middle.Perm rights
  | _, _, _ => False

def PermutedMembers :
    List (FieldOf DataType) → List (Text × Rich) → List (Text × Rich) → Prop
  | [], _, _ => True
  | ⟨name, type, _, _⟩ :: rest, lefts, rights =>
      Permuted type (rowMember lefts name) (rowMember rights name) ∧
        PermutedMembers rest lefts rights

end

section

variable (holds : List Rich → Prop)

mutual

/-- What holds of the keys of every map in a value. -/
def EachMap : DataType → Rich → Prop
  | .list children, value => EachMapOfItems children (arrayFrom value)
  | .map _ children, value =>
      holds ((mapPairs value).map Prod.fst) ∧ EachMapOfPairs children (mapPairs value)
  | .struct children, value => EachMapOfMembers children (ownEntries value)
  | _, _ => True

def EachMapOfItems : List (FieldOf DataType) → List Rich → Prop
  | ⟨_, type, _, _⟩ :: _, items => ∀ item ∈ items, EachMap type item
  | [], _ => True

def EachMapOfPairs : List (FieldOf DataType) → List (Rich × Rich) → Prop
  | ⟨_, .struct (_ :: ⟨_, valueType, _, _⟩ :: _), _, _⟩ :: _, pairs =>
      ∀ pair ∈ pairs, EachMap valueType pair.2
  | _, _ => True

def EachMapOfMembers : List (FieldOf DataType) → List (Text × Rich) → Prop
  | [], _ => True
  | ⟨name, type, _, _⟩ :: rest, members =>
      EachMap type (rowMember members name) ∧ EachMapOfMembers rest members

end

end

theorem permutedMembers_iff (children : List Field) (lefts rights : List (Text × Rich)) :
    PermutedMembers children lefts rights ↔ ∀ child ∈ children,
      Permuted child.type (rowMember lefts child.name) (rowMember rights child.name) := by
  induction children with
  | nil => exact iff_of_true trivial nofun
  | cons child rest ih =>
      obtain ⟨name, type, nullable, metadata⟩ := child
      rw [PermutedMembers, ih, List.forall_mem_cons]

theorem eachMapOfMembers_iff (holds : List Rich → Prop) (children : List Field)
    (members : List (Text × Rich)) :
    EachMapOfMembers holds children members ↔
      ∀ child ∈ children, EachMap holds child.type (rowMember members child.name) := by
  induction children with
  | nil => exact iff_of_true trivial nofun
  | cons child rest ih =>
      obtain ⟨name, type, nullable, metadata⟩ := child
      rw [EachMapOfMembers, ih, List.forall_mem_cons]

theorem mapValueType?_children (children : List Field) (valueType : DataType)
    (isValue : mapValueType? children = some valueType) :
    ∃ entryName key valueName valueNullable valueMetadata more nullable metadata rest,
      children = ⟨entryName, .struct (key :: ⟨valueName, valueType, valueNullable, valueMetadata⟩ ::
        more), nullable, metadata⟩ :: rest := by
  unfold mapValueType? at isValue
  split at isValue
  · cases isValue
    exact ⟨_, _, _, _, _, _, _, _, _, rfl⟩
  · cases isValue

theorem permutedPairs_iff (children : List Field) (valueType : DataType)
    (isValue : mapValueType? children = some valueType) (lefts rights : List (Rich × Rich)) :
    PermutedPairs children lefts rights ↔ ∃ middle, List.Forall₂
      (fun left right => left.1 = right.1 ∧ Permuted valueType left.2 right.2) lefts middle ∧
        middle.Perm rights := by
  obtain ⟨_, _, _, _, _, _, _, _, _, rfl⟩ := mapValueType?_children children valueType isValue
  rw [PermutedPairs]

theorem eachMapOfPairs_iff (holds : List Rich → Prop) (children : List Field)
    (valueType : DataType) (isValue : mapValueType? children = some valueType)
    (pairs : List (Rich × Rich)) :
    EachMapOfPairs holds children pairs ↔ ∀ pair ∈ pairs, EachMap holds valueType pair.2 := by
  obtain ⟨_, _, _, _, _, _, _, _, _, rfl⟩ := mapValueType?_children children valueType isValue
  rw [EachMapOfPairs]

private theorem not_permutedPairs (children : List Field)
    (noValue : mapValueType? children = none) (lefts rights : List (Rich × Rich)) :
    ¬PermutedPairs children lefts rights := by
  unfold mapValueType? at noValue
  split at noValue
  · cases noValue
  · rename_i unlike
    unfold PermutedPairs
    split
    · exact absurd rfl (unlike _ _ _ _ _ _ _ _ _ _)
    · exact id

private theorem map_eq_of_forall₂ {α β : Type} {related : α → α → Prop} (next : α → β)
    (lefts rights : List α) (each : List.Forall₂ related lefts rights)
    (same : ∀ left ∈ lefts, ∀ right, related left right → next left = next right) :
    lefts.map next = rights.map next := by
  induction each with
  | nil => rfl
  | cons first _ ih =>
      rw [List.map_cons, List.map_cons, same _ List.mem_cons_self _ first,
        ih fun left member => same left (List.mem_cons_of_mem _ member)]

/-- Only values that are both null or both present are the same but for the order of entries. -/
theorem permuted_null (type : DataType) (left right : Rich) (same : Permuted type left right) :
    left = right ∨ isRichNull left = false ∧ isRichNull right = false := by
  cases type with
  | list children =>
      rw [Permuted] at same
      rcases same with same | ⟨lefts, rights, rfl, rfl, _⟩
      · exact .inl same
      · exact .inr ⟨rfl, rfl⟩
  | map keysSorted children =>
      rw [Permuted] at same
      rcases same with same | ⟨isLeft, isRight, _⟩
      · exact .inl same
      · refine .inr ⟨?_, ?_⟩
        · cases left with
          | null => cases isLeft
          | _ => rfl
        · cases right with
          | null => cases isRight
          | _ => rfl
  | struct children =>
      rw [Permuted] at same
      rcases same with same | ⟨lefts, rights, rfl, rfl, _⟩
      · exact .inl same
      · exact .inr ⟨rfl, rfl⟩
  | _ =>
      rw [Permuted] at same
      · exact .inl same
      all_goals simp

/-! ## Conforming, part by part -/

/-- A value that is present, conformed. -/
def conformed (type : DataType) (name : Text) (value : Rich) : Rich :=
  (conformPresent type value name).getD value

/-- A list item or a map value, conformed. -/
def conformedElement (type : DataType) (mayBeNull : Bool) (name : Text) (value : Rich) : Rich :=
  (conformElement type mayBeNull (fun held => conformPresent type held name) value).getD value

/-- A column or a struct child, conformed. -/
def conformedSlot (field : Field) (value : Rich) : Rich :=
  (conformValue field.type (some value) field.nullable field.name).getD value

theorem conformedElement_present (type : DataType) (mayBeNull : Bool) (name : Text) (value : Rich)
    (present : isRichNull value = false) :
    conformedElement type mayBeNull name value = conformed type name value := by
  rw [conformedElement, conformElement, if_neg (by simp [present])]
  rfl

theorem conformedSlot_present (field : Field) (value : Rich) (present : isRichNull value = false) :
    conformedSlot field value = conformed field.type field.name value := by
  cases value with
  | null => cases present
  | _ => rfl

private theorem map_kept (items : List Rich) (next : Rich → Option Rich)
    (kept : ∀ item ∈ items, (next item).isNone = true) :
    items.map (fun item => (next item).getD item) = items := by
  refine (List.map_congr_left fun item member => ?_).trans (List.map_id items)
  rw [Option.isNone_iff_eq_none.mp (kept item member)]
  rfl

theorem arrayFrom_conformed (item : Field) (rest : List Field) (name : Text) (value : Rich) :
    arrayFrom (conformed (.list (item :: rest)) name value) = (arrayFrom value).map
      (conformedElement item.type (decide (name ∈ optionalItemFields)) name) := by
  rw [conformed, conformPresent]
  unfold conformItems
  dsimp only
  split
  · rename_i kept
    rw [Bool.and_eq_true, List.all_eq_true] at kept
    exact (map_kept (arrayFrom value) _ kept.2).symm
  · rfl

theorem conformed_array (item : Field) (rest : List Field) (name : Text) (items : List Rich) :
    conformed (.list (item :: rest)) name (.array items) = .array (items.map
      (conformedElement item.type (decide (name ∈ optionalItemFields)) name)) := by
  have shape : conformed (.list (item :: rest)) name (.array items) =
      .array (arrayFrom (conformed (.list (item :: rest)) name (.array items))) := by
    rw [conformed, conformPresent]
    unfold conformItems
    dsimp only
    split
    · rfl
    · rfl
  rw [shape, arrayFrom_conformed]
  rfl

theorem mapPairs_conformed (keysSorted : Bool) (children : List Field) (valueType : DataType)
    (isValue : mapValueType? children = some valueType) (name : Text) (value : Rich) :
    mapPairs (conformed (.map keysSorted children) name value) =
      (mapPairs value).map fun pair => (pair.1, conformedElement valueType false name pair.2) := by
  rw [conformed, conformPresent_map keysSorted children valueType isValue]
  dsimp only
  split
  · rename_i kept
    rw [List.all_eq_true] at kept
    refine ((List.map_congr_left fun pair member => ?_).trans (List.map_id _)).symm
    rw [conformedElement, Option.isNone_iff_eq_none.mp (kept pair member)]
    rfl
  · rw [Option.getD_some, mapPairs_pairArrays]
    rfl

/-- A type with no list and no map in it is left alone. -/
theorem conformed_plain (type : DataType) (plain : hasContainer type = false) (name : Text)
    (value : Rich) : conformed type name value = value := by
  rw [conformed]
  cases type with
  | list children => cases plain
  | map keysSorted children => cases plain
  | struct children =>
      rw [conformPresent, if_neg (by simpa [hasContainer] using plain)]
      exact itself_getD value
  | _ => exact itself_getD value

theorem conformedSlot_plain (field : Field) (plain : hasContainer field.type = false)
    (value : Rich) : conformedSlot field value = value := by
  cases isNull : isRichNull value with
  | false => rw [conformedSlot_present field value isNull, conformed_plain field.type plain]
  | true =>
      have noContainer : isContainer field.type = false := by
        cases type : field.type with
        | list children => rw [type] at plain; cases plain
        | map keysSorted children => rw [type] at plain; cases plain
        | _ => rfl
      cases (isRichNull_iff value).mp isNull
      rw [conformedSlot, conformValue, conformSlot, noContainer, Bool.and_false]
      rfl

private theorem childHasContainer_iff (children : List Field) :
    childHasContainer children = true ↔ ∃ child ∈ children, hasContainer child.type = true := by
  induction children with
  | nil => simp [childHasContainer]
  | cons child rest ih =>
      obtain ⟨name, type, nullable, metadata⟩ := child
      simp [childHasContainer, ih]

theorem rowMember_conformed (children : List Field) (nodup : (children.map FieldOf.name).Nodup)
    (name : Text) (value : Rich) (child : Field) (member : child ∈ children) :
    rowMember (ownEntries (conformed (.struct children) name value)) child.name =
      conformedSlot child (rowMember (ownEntries value) child.name) := by
  have settled := rowMember_conformRecord ⟨children, .empty⟩ nodup (ownEntries value) child member
  rw [conformed, conformPresent]
  split
  · split
    · rename_i unchanged
      rw [conformRecord, unchanged] at settled
      rw [itself_getD]
      exact settled
    · exact settled
  · rename_i noContainer
    rw [itself_getD, conformedSlot_plain]
    rw [Bool.eq_false_iff]
    exact fun container => noContainer ((childHasContainer_iff children).mpr ⟨child, member, container⟩)

theorem conformed_object (children : List Field) (name : Text) (members : List (Text × Rich)) :
    ∃ settled, conformed (.struct children) name (.object members) = .object settled := by
  rw [conformed, conformPresent]
  split
  · split
    · exact ⟨_, rfl⟩
    · exact ⟨_, rfl⟩
  · exact ⟨_, rfl⟩

/-! ## Sorting, part by part -/

section

variable (dateText : Number → Text)

private theorem sort_noMap (type : DataType) (noMap : typeHasMap type = false) (value : Rich) :
    sortMapsForType dateText type value = value :=
  sortMapsForType_skip dateText type value (by rw [noMap, Bool.false_and])

private theorem childHasMap_iff (children : List Field) :
    childHasMap children = true ↔ ∃ child ∈ children, typeHasMap child.type = true := by
  induction children with
  | nil => simp [childHasMap]
  | cons child rest ih =>
      obtain ⟨name, type, nullable, metadata⟩ := child
      simp [childHasMap, ih]

private theorem noMap_of_mem (children : List Field) (noMap : ¬childHasMap children = true)
    (child : Field) (member : child ∈ children) : typeHasMap child.type = false :=
  Bool.eq_false_iff.mpr fun map => noMap ((childHasMap_iff children).mpr ⟨child, member, map⟩)

theorem sorted_array (item : Field) (rest : List Field) (items : List Rich) :
    sortMapsForType dateText (.list (item :: rest)) (.array items) =
      .array (items.map (sortMapsForType dateText item.type)) := by
  rw [sortMapsForType]
  split
  · rename_i skipped
    have noMap : ¬childHasMap (item :: rest) = true := by
      intro map
      rw [map] at skipped
      cases skipped
    refine congrArg Rich.array ((List.map_congr_left fun value _ => ?_).trans
      (List.map_id items)).symm
    exact sort_noMap dateText item.type (noMap_of_mem _ noMap item List.mem_cons_self) value
  · rfl

theorem arrayFrom_sorted (item : Field) (rest : List Field) (value : Rich) :
    arrayFrom (sortMapsForType dateText (.list (item :: rest)) value) =
      (arrayFrom value).map (sortMapsForType dateText item.type) := by
  rw [sortMapsForType]
  split
  · rename_i skipped
    rw [Bool.or_eq_true] at skipped
    cases skipped with
    | inl isNull =>
        cases (isRichNull_iff value).mp isNull
        rfl
    | inr noMap =>
        have without := noMap_of_mem (item :: rest) (by simpa using noMap) item List.mem_cons_self
        refine ((List.map_congr_left fun value _ => ?_).trans (List.map_id _)).symm
        exact sort_noMap dateText item.type without value
  · rfl

/-- The entries of a map with their values sorted, in the order of their keys. -/
def sortedEntries (valueType : DataType) (pairs : List (Rich × Rich)) : List (Rich × Rich) :=
  (pairs.map fun pair => (pair.1, sortMapsForType dateText valueType pair.2)).mergeSort
    (keyed (keysLe dateText) Prod.fst)

theorem sorted_entries (keysSorted : Bool) (children : List Field) (valueType : DataType)
    (isValue : mapValueType? children = some valueType) (value : Rich)
    (present : isRichNull value = false) :
    sortMapsForType dateText (.map keysSorted children) value =
      .array ((sortedEntries dateText valueType (mapPairs value)).map pairArray) := by
  obtain ⟨_, _, _, _, _, _, _, _, _, rfl⟩ := mapValueType?_children children valueType isValue
  rw [sortMapsForType, if_neg (by simp [present]), sortPairs]
  rfl

theorem mapPairs_sorted (keysSorted : Bool) (children : List Field) (valueType : DataType)
    (isValue : mapValueType? children = some valueType) (value : Rich) :
    mapPairs (sortMapsForType dateText (.map keysSorted children) value) =
      sortedEntries dateText valueType (mapPairs value) := by
  cases isNull : isRichNull value with
  | false =>
      rw [sorted_entries dateText keysSorted children valueType isValue value isNull,
        mapPairs_pairArrays]
  | true =>
      cases (isRichNull_iff value).mp isNull
      rw [sortMapsForType, if_pos isNull, sortedEntries]
      exact List.mergeSort_nil.symm

private theorem sortedMembers_eq (children : List Field) (members : List (Text × Rich)) :
    sortedMembers dateText children members = children.map fun child =>
      (child.name, sortMapsForType dateText child.type (rowMember members child.name)) := by
  induction children with
  | nil => rfl
  | cons child rest ih =>
      obtain ⟨name, type, nullable, metadata⟩ := child
      rw [sortedMembers, ih]
      rfl

private theorem lastOf_sortedMembers (children : List Field)
    (nodup : (children.map FieldOf.name).Nodup) (members : List (Text × Rich)) (child : Field)
    (member : child ∈ children) :
    OrderedMap.lastOf (sortedMembers dateText children members) child.name =
      some (sortMapsForType dateText child.type (rowMember members child.name)) := by
  rw [OrderedMap.lastOf, sortedMembers_eq]
  refine lookupEntry_of_mem _ _ _ ?_ ?_
  · rw [List.map_reverse, List.nodup_reverse, List.map_map]
    exact nodup
  · rw [List.mem_reverse]
    exact List.mem_map_of_mem member

theorem rowMember_sorted (children : List Field) (nodup : (children.map FieldOf.name).Nodup)
    (value : Rich) (child : Field) (member : child ∈ children) :
    rowMember (ownEntries (sortMapsForType dateText (.struct children) value)) child.name =
      sortMapsForType dateText child.type (rowMember (ownEntries value) child.name) := by
  rw [sortMapsForType]
  split
  · rename_i skipped
    rw [Bool.or_eq_true] at skipped
    cases skipped with
    | inl isNull =>
        cases (isRichNull_iff value).mp isNull
        exact (sortMapsForType_skip dateText child.type .null (Bool.and_false _)).symm
    | inr noMap =>
        exact (sort_noMap dateText child.type
          (noMap_of_mem children (by simpa using noMap) child member) _).symm
  · rw [ownEntries, rowMember, lookupEntry_setMembers,
      lastOf_sortedMembers dateText children nodup _ child member]
    rfl

theorem sorted_object (children : List Field) (members : List (Text × Rich)) :
    ∃ settled, sortMapsForType dateText (.struct children) (.object members) = .object settled := by
  rw [sortMapsForType]
  split
  · exact ⟨_, rfl⟩
  · exact ⟨_, rfl⟩

end

/-! ## What goes out -/

section

variable (dateText : Number → Text)

/-- The cell of a value that is present. -/
def outcome (type : DataType) (name : Text) (value : Rich) : Except CodecError Value :=
  richToCanonical dateText type (sortMapsForType dateText type (conformed type name value))

/-- The cell of a list item or a map value. -/
def elementOutcome (type : DataType) (mayBeNull : Bool) (name : Text) (value : Rich) :
    Except CodecError Value :=
  richToCanonical dateText type
    (sortMapsForType dateText type (conformedElement type mayBeNull name value))

/-- The cell of a column or a struct child. -/
def slotOutcome (field : Field) (value : Rich) : Except CodecError Value :=
  richToCanonical dateText field.type (settledMember dateText field value)

private theorem outcome_array (item : Field) (rest : List Field) (name : Text)
    (items : List Rich) :
    outcome dateText (.list (item :: rest)) name (.array items) =
      (items.mapM (elementOutcome dateText item.type (decide (name ∈ optionalItemFields)) name) >>=
        fun cells => .ok (.array cells)) := by
  obtain ⟨itemName, type, nullable, metadata⟩ := item
  rw [outcome, conformed_array, sorted_array, List.map_map, richToCanonical, listToCanonical,
    if_neg (by exact Bool.false_ne_true), richElements, except_ok_bind, List.mapM_map]
  rfl

/-- The cell of a map entry, given that of its value. -/
def entryCell (keyType : DataType) (pair : Rich × Except CodecError Value) :
    Except CodecError Value := do
  let key ← richToCanonical dateText keyType pair.1
  let held ← pair.2
  .ok (.array [key, held])

private theorem canonical_entries (keysSorted : Bool) (children : List Field)
    (valueType : DataType) (isValue : mapValueType? children = some valueType) :
    ∃ keyType, ∀ pairs : List (Rich × Rich),
      richToCanonical dateText (.map keysSorted children) (.array (pairs.map pairArray)) =
        ((pairs.map fun pair => (pair.1, richToCanonical dateText valueType pair.2)).mapM
          (entryCell dateText keyType) >>= fun cells => .ok (.array cells)) := by
  obtain ⟨_, ⟨_, keyType, _, _⟩, _, _, _, _, _, _, _, rfl⟩ :=
    mapValueType?_children children valueType isValue
  refine ⟨keyType, fun pairs => ?_⟩
  have read : richPairs (.array (pairs.map pairArray)) = .ok pairs := by
    rw [richPairs, List.mapM_map]
    exact (except_mapM_eq _ id pairs fun _ _ => rfl).trans (by rw [List.map_id])
  rw [richToCanonical, mapToCanonical, if_neg (by exact Bool.false_ne_true), read, except_ok_bind,
    List.mapM_map]
  rfl

/-- A map goes out in the order of its keys. -/
private theorem outcome_entries (keysSorted : Bool) (children : List Field) (valueType : DataType)
    (isValue : mapValueType? children = some valueType) (name : Text) :
    ∃ keyType, ∀ value, isEntries value = true →
      outcome dateText (.map keysSorted children) name value =
        ((((mapPairs value).map fun pair =>
            (pair.1, elementOutcome dateText valueType false name pair.2)).mergeSort
          (keyed (keysLe dateText) Prod.fst)).mapM (entryCell dateText keyType) >>=
            fun cells => .ok (.array cells)) := by
  obtain ⟨keyType, canonical⟩ := canonical_entries dateText keysSorted children valueType isValue
  refine ⟨keyType, fun value entries => ?_⟩
  have present : isRichNull (conformed (.map keysSorted children) name value) = false :=
    conformPresent_present _ value name (by cases value with | null => cases entries | _ => rfl)
  rw [outcome, sorted_entries dateText keysSorted children valueType isValue _ present, canonical,
    mapPairs_conformed keysSorted children valueType isValue, sortedEntries,
    map_mergeSort_keyed (keysLe dateText) Prod.fst Prod.fst
      (fun pair => (pair.1, richToCanonical dateText valueType pair.2)) fun _ => rfl, List.map_map,
    List.map_map]
  rfl

private theorem structToCanonical_congr (children : List Field)
    (lefts rights : List (Text × Rich))
    (same : ∀ child ∈ children,
      richToCanonical dateText child.type (rowMember lefts child.name) =
        richToCanonical dateText child.type (rowMember rights child.name)) :
    structToCanonical dateText children (.object lefts) =
      structToCanonical dateText children (.object rights) := by
  induction children with
  | nil => rfl
  | cons child rest ih =>
      obtain ⟨name, type, nullable, metadata⟩ := child
      have first := same ⟨name, type, nullable, metadata⟩ List.mem_cons_self
      have others := ih fun child member => same child (List.mem_cons_of_mem _ member)
      dsimp only [rowMember] at first
      rw [structToCanonical, structToCanonical, richMember, richMember, except_ok_bind,
        except_ok_bind, first, others]

private theorem outcome_object (children : List Field) (nodup : (children.map FieldOf.name).Nodup)
    (name : Text) (members : List (Text × Rich)) :
    ∃ settled, sortMapsForType dateText (.struct children)
        (conformed (.struct children) name (.object members)) = .object settled ∧
      ∀ child ∈ children, rowMember settled child.name =
        settledMember dateText child (rowMember members child.name) := by
  obtain ⟨filled, isFilled⟩ := conformed_object children name members
  obtain ⟨settled, isSettled⟩ := sorted_object dateText children filled
  refine ⟨settled, by rw [isFilled, isSettled], fun child member => ?_⟩
  have sorts := rowMember_sorted dateText children nodup (.object filled) child member
  have fills := rowMember_conformed children nodup name (.object members) child member
  rw [isFilled] at fills
  rw [isSettled] at sorts
  dsimp only [ownEntries] at sorts fills
  rw [sorts, fills]
  rfl

private theorem mapM_outcomes (items : List Rich) (next : Rich → Except CodecError Value) :
    items.mapM next = (items.map next).mapM id := by
  rw [List.mapM_map]
  rfl

private theorem elementOutcome_permuted (type : DataType) (mayBeNull : Bool) (name : Text)
    (left right : Rich) (same : Permuted type left right)
    (ih : outcome dateText type name left = outcome dateText type name right) :
    elementOutcome dateText type mayBeNull name left =
      elementOutcome dateText type mayBeNull name right := by
  rcases permuted_null type left right same with rfl | ⟨leftPresent, rightPresent⟩
  · rfl
  · rw [elementOutcome, elementOutcome, conformedElement_present type mayBeNull name left leftPresent,
      conformedElement_present type mayBeNull name right rightPresent]
    exact ih

theorem slotOutcome_permuted (field : Field) (left right : Rich)
    (same : Permuted field.type left right)
    (ih : outcome dateText field.type field.name left =
      outcome dateText field.type field.name right) :
    slotOutcome dateText field left = slotOutcome dateText field right := by
  rcases permuted_null field.type left right same with rfl | ⟨leftPresent, rightPresent⟩
  · rfl
  · have settled (value : Rich) (present : isRichNull value = false) :
        slotOutcome dateText field value = outcome dateText field.type field.name value := by
      rw [slotOutcome, settledMember, ← conformedSlot, conformedSlot_present field value present]
      rfl
    rw [settled left leftPresent, settled right rightPresent, ih]

/-- Values that differ only in the order of map entries go out the same. -/
theorem outcome_permuted (type : DataType) (named : WellNamed type) (name : Text)
    (left right : Rich) (same : Permuted type left right)
    (sortable : EachMap (SortableKeys dateText) type left) :
    outcome dateText type name left = outcome dateText type name right := by
  induction type using containerInduction generalizing name left right with
  | list item rest ih =>
      rw [Permuted] at same
      rw [WellNamed] at named
      rw [EachMap, EachMapOfItems] at sortable
      have itemNamed := wellNamed_of_mem (item :: rest) named item List.mem_cons_self
      rcases same with rfl | ⟨lefts, rights, rfl, rfl, each⟩
      · rfl
      · rw [PermutedItems] at each
        rw [outcome_array, outcome_array]
        have cells := map_eq_of_forall₂
          (elementOutcome dateText item.type (decide (name ∈ optionalItemFields)) name) lefts rights
          each fun left member right same => elementOutcome_permuted dateText _ _ name left right
            same (ih itemNamed name left right same (sortable left member))
        rw [mapM_outcomes, mapM_outcomes, cells]
  | emptyList =>
      rw [Permuted] at same
      rcases same with rfl | ⟨lefts, rights, rfl, rfl, each⟩
      · rfl
      · rw [PermutedItems] at each
        rw [each]
  | map keysSorted children valueType isValue ih =>
      rw [Permuted, permutedPairs_iff children valueType isValue] at same
      rw [WellNamed] at named
      rw [EachMap, eachMapOfPairs_iff _ children valueType isValue] at sortable
      rcases same with rfl | ⟨isLeft, isRight, middle, each, moved⟩
      · rfl
      · obtain ⟨keyType, entries⟩ :=
          outcome_entries dateText keysSorted children valueType isValue name
        rw [entries left isLeft, entries right isRight]
        let next (pair : Rich × Rich) : Rich × Except CodecError Value :=
          (pair.1, elementOutcome dateText valueType false name pair.2)
        have carried : (mapPairs left).map next = middle.map next :=
          map_eq_of_forall₂ next _ _ each fun pair member other same =>
            Prod.ext same.1 (elementOutcome_permuted dateText valueType false name pair.2 other.2
              same.2 (ih (wellNamed_mapValue children named valueType isValue) name pair.2 other.2
                same.2 (sortable.2 pair member)))
        have keys : ((mapPairs left).map next).map Prod.fst = (mapPairs left).map Prod.fst :=
          List.map_map
        have separates : KeyedSort.Separates (keysLe dateText)
            (((mapPairs left).map next).map Prod.fst) := keys ▸ sortable.1.separates
        have sorted : ((mapPairs left).map next).mergeSort (keyed (keysLe dateText) Prod.fst) =
            ((mapPairs right).map next).mergeSort (keyed (keysLe dateText) Prod.fst) :=
          separates.mergeSort_eq (carried ▸ moved.map next)
        rw [sorted]
  | otherMap keysSorted children noValue =>
      rw [Permuted] at same
      rcases same with rfl | ⟨_, _, pairs⟩
      · rfl
      · exact absurd pairs (not_permutedPairs children noValue _ _)
  | struct children ih =>
      rw [Permuted] at same
      rw [WellNamed] at named
      rw [EachMap] at sortable
      rcases same with rfl | ⟨lefts, rights, rfl, rfl, members⟩
      · rfl
      · rw [permutedMembers_iff] at members
        rw [ownEntries, eachMapOfMembers_iff] at sortable
        obtain ⟨leftSettled, isLeft, leftMembers⟩ :=
          outcome_object dateText children named.1 name lefts
        obtain ⟨rightSettled, isRight, rightMembers⟩ :=
          outcome_object dateText children named.1 name rights
        rw [outcome, outcome, isLeft, isRight, richToCanonical, richToCanonical,
          structToCanonical_congr dateText children leftSettled rightSettled]
        · rfl
        · intro child member
          rw [leftMembers child member, rightMembers child member]
          exact slotOutcome_permuted dateText child _ _ (members child member)
            (ih child member (wellNamed_of_mem children named.2 child member) child.name _ _
              (members child member) (sortable child member))
  | other type noContainer noStruct =>
      have equal : left = right := by
        cases type with
        | list children => cases noContainer
        | map keysSorted children => cases noContainer
        | struct children => cases noStruct
        | _ =>
            rw [Permuted] at same
            · exact same
            all_goals simp
      rw [equal]

end

end VgiWorker.Codec
