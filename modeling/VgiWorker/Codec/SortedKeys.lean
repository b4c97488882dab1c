import VgiWorker.Codec.InsertionOrder

/-!
# Keys in order

Every map of a record goes out in ascending order of its keys, whatever the order
its entries came in.
-/

set_option autoImplicit false

namespace VgiWorker.Codec

open Js Arrow
open Protocol (Row rowMember optionalItemFields)
open KeyedSort (keyed)

section

variable (holds : List Rich → Prop)

private theorem eachMapOfPairs_nil (children : List Field) : EachMapOfPairs holds children [] := by
  unfold EachMapOfPairs
  split
  · exact nofun
  · trivial

/-- A value with nothing in it has no key. -/
theorem eachMap_bare (noKeys : holds []) (type : DataType) (value : Rich)
    (bare : value = .null ∨ value = .array []) : EachMap holds type value := by
  have noItems : arrayFrom value = [] := by rcases bare with rfl | rfl <;> rfl
  have noPairs : mapPairs value = [] := by rcases bare with rfl | rfl <;> rfl
  have noMembers : ownEntries value = [] := by rcases bare with rfl | rfl <;> rfl
  induction type using containerInduction generalizing value with
  | list item rest ih =>
      rw [EachMap, noItems, EachMapOfItems]
      exact List.forall_mem_nil _
  | emptyList => trivial
  | map keysSorted children valueType isValue ih =>
      rw [EachMap, noPairs]
      exact ⟨noKeys, eachMapOfPairs_nil holds children⟩
  | otherMap keysSorted children noValue =>
      rw [EachMap, noPairs]
      exact ⟨noKeys, eachMapOfPairs_nil holds children⟩
  | struct children ih =>
      rw [EachMap, noMembers, eachMapOfMembers_iff]
      exact fun child member => ih child member .null (.inl rfl) rfl rfl rfl
  | other type noContainer noStruct =>
      cases type with
      | list children => cases noContainer
      | map keysSorted children => cases noContainer
      | struct children => cases noStruct
      | _ => trivial

private theorem eachMap_zeroValue (noKeys : holds []) (type : DataType) (named : WellNamed type) :
    EachMap holds type (zeroValue type) := by
  cases type with
  | list children => exact eachMap_bare holds noKeys _ _ (.inr rfl)
  | map keysSorted children => exact eachMap_bare holds noKeys _ _ (.inr rfl)
  | struct children =>
      rw [WellNamed] at named
      rw [EachMap, eachMapOfMembers_iff]
      intro child member
      rw [zeroValue, ownEntries, rowMember, lookupEntry_zeroMembers children named.1 child member,
        Option.getD_some]
      refine eachMap_bare holds noKeys child.type _ ?_
      unfold emptyContainer
      split
      · exact .inl rfl
      · split
        · exact .inr rfl
        · exact .inl rfl
  | _ => trivial

private theorem eachMap_element (noKeys : holds []) (type : DataType) (named : WellNamed type)
    (mayBeNull : Bool) (name : Text) (value : Rich) (each : EachMap holds type value)
    (ih : EachMap holds type (conformed type name value)) :
    EachMap holds type (conformedElement type mayBeNull name value) := by
  cases isNull : isRichNull value with
  | false => rwa [conformedElement_present type mayBeNull name value isNull]
  | true =>
      rw [conformedElement, conformElement, if_pos isNull]
      split
      · exact each
      · exact eachMap_zeroValue holds noKeys type named

private theorem eachMap_slot (noKeys : holds []) (field : Field) (value : Rich)
    (each : EachMap holds field.type value)
    (ih : EachMap holds field.type (conformed field.type field.name value)) :
    EachMap holds field.type (conformedSlot field value) := by
  cases isNull : isRichNull value with
  | false => rwa [conformedSlot_present field value isNull]
  | true =>
      cases (isRichNull_iff value).mp isNull
      rw [conformedSlot, conformValue, conformSlot]
      split
      · exact eachMap_bare holds noKeys _ _ (.inr rfl)
      · exact each

/-- Conforming a value keeps the keys of its maps. -/
theorem eachMap_conformed (noKeys : holds []) (type : DataType) (named : WellNamed type)
    (name : Text) (value : Rich) (each : EachMap holds type value) :
    EachMap holds type (conformed type name value) := by
  induction type using containerInduction generalizing name value with
  | list item rest ih =>
      rw [WellNamed] at named
      rw [EachMap, EachMapOfItems] at each ⊢
      have itemNamed := wellNamed_of_mem (item :: rest) named item List.mem_cons_self
      rw [arrayFrom_conformed, List.forall_mem_map]
      exact fun element member => eachMap_element holds noKeys item.type itemNamed _ name element
        (each element member) (ih itemNamed name element (each element member))
  | emptyList => trivial
  | map keysSorted children valueType isValue ih =>
      rw [WellNamed] at named
      rw [EachMap, eachMapOfPairs_iff holds children valueType isValue] at each ⊢
      have valueNamed := wellNamed_mapValue children named valueType isValue
      rw [mapPairs_conformed keysSorted children valueType isValue, List.forall_mem_map,
        List.map_map]
      exact ⟨each.1, fun pair member => eachMap_element holds noKeys valueType valueNamed false
        name pair.2 (each.2 pair member) (ih valueNamed name pair.2 (each.2 pair member))⟩
  | otherMap keysSorted children noValue =>
      rw [conformed, conformPresent_otherMap keysSorted children noValue, itself_getD]
      exact each
  | struct children ih =>
      rw [WellNamed] at named
      rw [EachMap, eachMapOfMembers_iff] at each ⊢
      intro child member
      rw [rowMember_conformed children named.1 name value child member]
      exact eachMap_slot holds noKeys child _ (each child member)
        (ih child member (wellNamed_of_mem children named.2 child member) child.name _
          (each child member))
  | other type noContainer noStruct =>
      cases type with
      | list children => cases noContainer
      | map keysSorted children => cases noContainer
      | struct children => cases noStruct
      | _ => trivial

end

section

variable (dateText : Number → Text)

/-- Keys in strictly ascending order. -/
def AscendingKeys (keys : List Rich) : Prop :=
  keys.Pairwise fun left right => compareKeys dateText left right < 0

private theorem sortableKeys_nil : SortableKeys dateText [] :=
  ⟨.inl nofun, nofun, .nil⟩

private theorem entries_ascending (entries : List (Rich × Rich))
    (sortable : SortableKeys dateText (entries.map Prod.fst)) :
    AscendingKeys dateText
      ((entries.mergeSort (keyed (keysLe dateText) Prod.fst)).map Prod.fst) := by
  have noNaN (entry : Rich × Rich)
      (member : entry ∈ entries.mergeSort (keyed (keysLe dateText) Prod.fst)) :
      entry.1 ≠ .number .nan :=
    sortable.noNaN entry.1 (List.mem_map_of_mem (List.mem_mergeSort.mp member))
  refine List.pairwise_map.mpr (sortable.separates.strictly_sorted.imp_of_mem ?_)
  intro left right isLeft isRight ordered
  have swapped := compareKeys_swap dateText left.1 right.1 (noNaN left isLeft) (noNaN right isRight)
  have after := Bool.eq_false_iff.mp ordered.2
  rw [keyed, ne_eq, keysLe_iff dateText _ _ (noNaN right isRight) (noNaN left isLeft), swapped] at after
  omega

private theorem sortPairs_other (children : List Field) (noValue : mapValueType? children = none)
    (pairs : List (Rich × Rich)) : sortPairs dateText children pairs = pairs := by
  unfold mapValueType? at noValue
  split at noValue
  · cases noValue
  · rename_i unlike
    unfold sortPairs
    split
    · exact absurd rfl (unlike _ _ _ _ _ _ _ _ _ _)
    · rfl

private theorem eachMapOfPairs_other (holds : List Rich → Prop) (children : List Field)
    (noValue : mapValueType? children = none) (pairs : List (Rich × Rich)) :
    EachMapOfPairs holds children pairs := by
  unfold mapValueType? at noValue
  split at noValue
  · cases noValue
  · rename_i unlike
    unfold EachMapOfPairs
    split
    · exact absurd rfl (unlike _ _ _ _ _ _ _ _ _ _)
    · trivial

/-- The keys of a sorted value are in order. -/
theorem eachMap_sorted (type : DataType) (named : WellNamed type) (value : Rich)
    (sortable : EachMap (SortableKeys dateText) type value) :
    EachMap (AscendingKeys dateText) type (sortMapsForType dateText type value) := by
  induction type using containerInduction generalizing value with
  | list item rest ih =>
      rw [WellNamed] at named
      rw [EachMap, EachMapOfItems] at sortable ⊢
      rw [arrayFrom_sorted, List.forall_mem_map]
      exact fun element member =>
        ih (wellNamed_of_mem _ named item List.mem_cons_self) element (sortable element member)
  | emptyList => trivial
  | map keysSorted children valueType isValue ih =>
      rw [WellNamed] at named
      rw [EachMap, eachMapOfPairs_iff _ children valueType isValue] at sortable ⊢
      rw [mapPairs_sorted dateText keysSorted children valueType isValue, sortedEntries]
      refine ⟨entries_ascending dateText _ ?_, fun pair member => ?_⟩
      · rw [List.map_map]
        exact sortable.1
      · obtain ⟨held, isHeld, rfl⟩ := List.mem_map.mp (List.mem_mergeSort.mp member)
        exact ih (wellNamed_mapValue children named valueType isValue) held.2
          (sortable.2 held isHeld)
  | otherMap keysSorted children noValue =>
      rw [EachMap] at sortable ⊢
      refine ⟨?_, eachMapOfPairs_other _ children noValue _⟩
      cases isNull : isRichNull value with
      | true =>
          cases (isRichNull_iff value).mp isNull
          rw [sortMapsForType, if_pos isNull]
          exact .nil
      | false =>
          rw [sortMapsForType, if_neg (by simp [isNull]), mapPairs_pairArrays,
            sortPairs_other dateText children noValue]
          exact entries_ascending dateText _ sortable.1
  | struct children ih =>
      rw [WellNamed] at named
      rw [EachMap, eachMapOfMembers_iff] at sortable ⊢
      intro child member
      rw [rowMember_sorted dateText children named.1 value child member]
      exact ih child member (wellNamed_of_mem children named.2 child member) _
        (sortable child member)
  | other type noContainer noStruct =>
      cases type with
      | list children => cases noContainer
      | map keysSorted children => cases noContainer
      | struct children => cases noStruct
      | _ => trivial

/-! ## Records -/

variable {Stream : Type} (serializeBatch : Schema → List Value → Except Text Stream)

def encodeASD (schema : Schema) (record : Row) : Except CollectionFault Stream := do
  let cells ← rowCells dateText schema
    (sortMapsForSchema dateText schema (conformRecord schema record))
  (serializeBatch schema cells).mapError .library

/-- A comparison of strings that is a total order, and the order of UTF-8 bytes on well-formed
ones. -/
structure ByteOrder (compareTexts : Text → Text → Int) : Prop where
  swap : ∀ left right, compareTexts right left = -compareTexts left right
  zero : ∀ left right, compareTexts left right = 0 ↔ left = right
  trans : ∀ first second third, compareTexts first second ≤ 0 → compareTexts second third ≤ 0 →
    compareTexts first third ≤ 0
  utf8 : ∀ left right, IsWellFormed left → IsWellFormed right →
    compare (compareTexts left right) 0 = compare (utf8Encode left) (utf8Encode right)

private theorem rowCells_congr (schema : Schema) (left right : Row)
    (same : ∀ field ∈ schema.fields,
      rowCell dateText left field = rowCell dateText right field) :
    rowCells dateText schema left = rowCells dateText schema right :=
  except_mapM_congr _ _ schema.fields same

/-- Records that differ only in the order of map entries are encoded the same, with the keys of
every map in order. -/
theorem encodeASD_order_independent (schema : Schema)
    (nodup : (schema.fields.map FieldOf.name).Nodup) (named : AllWellNamed schema.fields)
    (record permuted : Row)
    (same : ∀ field ∈ schema.fields,
      Permuted field.type (rowMember record field.name) (rowMember permuted field.name))
    (sortable : ∀ field ∈ schema.fields,
      EachMap (SortableKeys dateText) field.type (rowMember record field.name)) :
    encodeASD dateText serializeBatch schema record =
        encodeASD dateText serializeBatch schema permuted ∧
      (∀ field ∈ schema.fields, EachMap (AscendingKeys dateText) field.type
        (rowMember (sortMapsForSchema dateText schema (conformRecord schema record)) field.name)) ∧
      (∀ left right, compareKeys dateText (.string left) (.string right) =
        compareCodePoints left right) ∧
      ByteOrder compareCodePoints := by
  have typed (field : Field) (member : field ∈ schema.fields) :=
    wellNamed_of_mem schema.fields named field member
  refine ⟨?_, fun field member => ?_, fun _ _ => rfl, compareCodePoints_swap,
    compareCodePoints_eq_zero, compareCodePoints_trans, compareCodePoints_utf8⟩
  · have cells := rowCells_congr dateText schema
      (sortMapsForSchema dateText schema (conformRecord schema record))
      (sortMapsForSchema dateText schema (conformRecord schema permuted)) fun field member => by
        rw [rowCell, rowCell, rowMember_settled dateText schema nodup record field member,
          rowMember_settled dateText schema nodup permuted field member]
        exact congrArg (Except.mapError CollectionFault.codec)
          (slotOutcome_permuted dateText field _ _ (same field member)
            (outcome_permuted dateText field.type (typed field member) field.name _ _
              (same field member) (sortable field member)))
    rw [encodeASD, encodeASD, cells]
  · rw [rowMember_settled dateText schema nodup record field member, settledMember]
    refine eachMap_sorted dateText field.type (typed field member) _ ?_
    exact eachMap_slot _ (sortableKeys_nil dateText) field _ (sortable field member)
      (eachMap_conformed _ (sortableKeys_nil dateText) field.type (typed field member) field.name _
        (sortable field member))

end

private def entriesOf (keyType valueType : DataType) : List Field :=
  [⟨text "entries", .struct [⟨text "key", keyType, false, .empty⟩,
    ⟨text "value", valueType, true, .empty⟩], false, .empty⟩]

private def nestedTags : Schema where
  fields := [⟨text "tags", .list [⟨text "item",
    .map false (entriesOf .utf8 (.map false (entriesOf .utf8 .bool))), false, .empty⟩], false,
    .empty⟩]
  metadata := .empty

/-- A map of maps, in a list, with its entries in two orders. -/
theorem encodeASD_order_independent_nested :
    let inner : Rich := .object [(text "x", .bool true), (text "y", .bool false)]
    let swapped : Rich := .object [(text "y", .bool false), (text "x", .bool true)]
    let cells (record : Row) := encodeASD (fun _ => []) (fun _ cells => .ok cells) nestedTags record
    cells [(text "tags", .array [.object [(text "b", inner), (text "a", .object [])]])] =
      cells [(text "tags", .array [.object [(text "a", .object []), (text "b", swapped)]])] := by
  intro inner swapped cells
  have named : AllWellNamed nestedTags.fields := by
    simp [nestedTags, entriesOf, AllWellNamed, WellNamed]
    decide
  refine (encodeASD_order_independent (fun _ => []) (fun _ cells => .ok cells) nestedTags
    (by decide) named _ _ ?_ ?_).1
  · refine List.forall_mem_singleton.mpr ?_
    change Permuted _ (.array [.object [(text "b", inner), (text "a", .object [])]])
      (.array [.object [(text "a", .object []), (text "b", swapped)]])
    have innerSame : Permuted (.map false (entriesOf .utf8 .bool)) inner swapped := by
      rw [Permuted, permutedPairs_iff _ .bool rfl]
      refine .inr ⟨rfl, rfl, mapPairs inner, ?_, .swap _ _ []⟩
      exact List.forall₂_same.mpr fun pair _ => ⟨rfl, by rw [Permuted]; all_goals simp⟩
    rw [Permuted]
    refine .inr ⟨_, _, rfl, rfl, .cons ?_ .nil⟩
    rw [Permuted, permutedPairs_iff _ _ rfl]
    refine .inr ⟨rfl, rfl, [(.string (text "b"), swapped), (.string (text "a"), .object [])], ?_,
      .swap _ _ []⟩
    exact .cons ⟨rfl, innerSame⟩ (.cons ⟨rfl, by rw [Permuted]; exact .inl rfl⟩ .nil)
  · refine List.forall_mem_singleton.mpr ?_
    change EachMap _ _ (.array [.object [(text "b", inner), (text "a", .object [])]])
    rw [EachMap]
    refine List.forall_mem_singleton.mpr ?_
    rw [EachMap, eachMapOfPairs_iff _ _ _ rfl]
    refine ⟨sortableKeys_strings _ [text "b", text "a"] (by decide), fun pair member => ?_⟩
    rw [EachMap, eachMapOfPairs_iff _ _ _ rfl]
    refine ⟨?_, fun _ _ => trivial⟩
    rcases List.mem_pair.mp member with rfl | rfl
    · exact sortableKeys_strings _ [text "x", text "y"] (by decide)
    · exact sortableKeys_strings _ [] .nil

/-- Keys that are numbers go out in numeric order, which is not that of code points. -/
theorem number_keys_in_numeric_order :
    let pair (key : Nat) : Rich := .array [.number (.ofNat key), .bool true]
    sortMapsForType (fun _ => []) (.map false (entriesOf (.int 32 true) .bool))
        (.array [pair 2, pair 10]) = .array [pair 2, pair 10] ∧
      compareCodePoints (Number.ofNat 10).toText (Number.ofNat 2).toText < 0 := by
  intro pair
  refine ⟨?_, by decide +kernel⟩
  rw [sorted_entries _ _ _ .bool rfl _ rfl, sortedEntries, List.mergeSort_of_pairwise]
  · rfl
  · exact List.pairwise_pair.mpr (by decide +kernel)

end VgiWorker.Codec
