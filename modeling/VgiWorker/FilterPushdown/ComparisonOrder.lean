import VgiWorker.Arrow.TextLess
import VgiWorker.FilterPushdown.DeepEquality
import VgiWorker.Js.TextOrder

/-!
# The order of comparisons

The engine orders text by UTF-8 bytes, blobs by bytes, and lists and structs
member by member. `orderedCompare` asks `<`, which compares text by code units
and anything with members as text.
-/

set_option autoImplicit false

namespace VgiWorker.FilterPushdown

open VgiWorker.Js VgiWorker.Arrow FirstDifference

/-! ## The engine's order -/

/-- The types literals are compared at, by their canonical values. -/
inductive ComparedType where
  | number
  | bigint
  | bool
  | string
  | bytes
  | list (element : ComparedType)
  | struct (fields : List (Text × ComparedType))

mutual

def comparedType : DataType → Option ComparedType
  | .int bitWidth _ => some (if bitWidth = 64 then .bigint else .number)
  | .float _ => some .number
  | .bool => some .bool
  | .utf8 | .largeUtf8 => some .string
  | .binary | .largeBinary | .fixedSizeBinary _ => some .bytes
  | .date unit => some (if unit = .day then .number else .bigint)
  | .time _ bitWidth => some (if bitWidth = 64 then .bigint else .number)
  | .decimal _ _ _ | .timestamp _ _ | .duration _ => some .bigint
  | .list (⟨_, type, _, _⟩ :: _) | .fixedSizeList _ (⟨_, type, _, _⟩ :: _) =>
      (comparedType type).map .list
  | .struct children => (comparedFields children).map .struct
  | .dictionary _ type _ _ => comparedType type
  | _ => none

def comparedFields : List (FieldOf DataType) → Option (List (Text × ComparedType))
  | [] => some []
  | ⟨name, type, _, _⟩ :: rest =>
      match comparedType type, comparedFields rest with
      | some type, some fields => some ((name, type) :: fields)
      | _, _ => none

end

/-- A member of a struct; one that is not there is null. -/
def memberOf (name : Text) : Value → Value
  | .object entries => (lookupEntry entries name).getD .null
  | _ => .null

mutual

/-- The canonical values of a type. -/
def HasType : ComparedType → Value → Prop
  | .number, .number _ => True
  | .bigint, .bigint _ => True
  | .bool, .bool _ => True
  | .string, .string string => IsWellFormed string
  | .bytes, .bytes _ => True
  | .list element, .array elements => ∀ value ∈ elements, value ≠ .null → HasType element value
  | .struct fields, .object entries =>
      (fields.map Prod.fst).Nodup ∧ entries.map Prod.fst = fields.map Prod.fst ∧
        HasMembers fields (.object entries)
  | _, _ => False

def HasMembers : List (Text × ComparedType) → Value → Prop
  | [], _ => True
  | (name, type) :: rest, value =>
      (memberOf name value ≠ .null → HasType type (memberOf name value)) ∧ HasMembers rest value

end

def numberOf : Value → Number
  | .number value => value
  | _ => .zero

def bigintOf : Value → Int
  | .bigint value => value
  | _ => 0

def boolOf : Value → Bool
  | .bool value => value
  | _ => false

def stringOf : Value → Text
  | .string value => value
  | _ => []

def bytesOf : Value → Bytes
  | .bytes value => value
  | _ => []

def elementsOf : Value → List Value
  | .array elements => elements
  | _ => []

/-- Nulls in lists and structs come last. -/
def nullsLast (order : Value → Value → Ordering) : Value → Value → Ordering :=
  compareLex (compareOn isNullValue) order

mutual

def engineOrder : ComparedType → Value → Value → Ordering
  | .number => compareOn fun value => (numberOf value).rank
  | .bigint => compareOn bigintOf
  | .bool => compareOn boolOf
  | .string => compareOn fun value => utf8Encode (stringOf value)
  | .bytes => compareOn bytesOf
  | .list element => fun left right =>
      List.compareLex (nullsLast (engineOrder element)) (elementsOf left) (elementsOf right)
  | .struct fields => engineMembersOrder fields

def engineMembersOrder : List (Text × ComparedType) → Value → Value → Ordering
  | [] => fun _ _ => .eq
  | (name, type) :: rest =>
      compareLex
        (fun left right => nullsLast (engineOrder type) (memberOf name left) (memberOf name right))
        (engineMembersOrder rest)

end

private theorem transCmp_comap {α β : Type} (order : β → β → Ordering) [Std.TransCmp order]
    (key : α → β) : Std.TransCmp fun left right => order (key left) (key right) where
  eq_swap := Std.OrientedCmp.eq_swap
  isLE_trans := Std.TransCmp.isLE_trans

private theorem transCmp_nullsLast (order : Value → Value → Ordering) [Std.TransCmp order] :
    Std.TransCmp (nullsLast order) :=
  inferInstanceAs (Std.TransCmp (compareLex (compareOn isNullValue) order))

mutual

/-- The engine's order is total, antisymmetric and transitive. -/
theorem transCmp_engineOrder (type : ComparedType) : Std.TransCmp (engineOrder type) := by
  cases type with
  | number =>
      rw [engineOrder]
      infer_instance
  | bigint =>
      rw [engineOrder]
      infer_instance
  | bool =>
      rw [engineOrder]
      infer_instance
  | string =>
      rw [engineOrder]
      infer_instance
  | bytes =>
      rw [engineOrder]
      infer_instance
  | list element =>
      rw [engineOrder]
      have _ := transCmp_engineOrder element
      have _ := transCmp_nullsLast (engineOrder element)
      exact transCmp_comap (List.compareLex (nullsLast (engineOrder element))) elementsOf
  | struct fields =>
      rw [engineOrder]
      exact transCmp_engineMembersOrder fields

theorem transCmp_engineMembersOrder (fields : List (Text × ComparedType)) :
    Std.TransCmp (engineMembersOrder fields) := by
  cases fields with
  | nil =>
      rw [engineMembersOrder]
      exact { eq_swap := rfl, isLE_trans := fun _ _ => rfl }
  | cons field rest =>
      obtain ⟨name, type⟩ := field
      rw [engineMembersOrder]
      have _ := transCmp_engineOrder type
      have _ := transCmp_nullsLast (engineOrder type)
      have _ := transCmp_engineMembersOrder rest
      have _ := transCmp_comap (nullsLast (engineOrder type)) (memberOf name)
      infer_instance

end

/-! ## Equality -/

private theorem nullsLast_eq (order : Value → Value → Ordering) [Std.TransCmp order]
    (left right : Value)
    (same : left ≠ .null → right ≠ .null →
      (order left right = .eq ↔ deepEqual left right = true)) :
    nullsLast order left right = .eq ↔ deepEqual left right = true := by
  have opened : nullsLast order left right = .eq ↔
      isNullValue left = isNullValue right ∧ order left right = .eq := by
    rw [nullsLast, compareLex_eq_eq, compareOn, Std.LawfulEqOrd.compare_eq_iff_eq]
  rw [opened]
  by_cases leftNull : left = .null
  · subst leftNull
    by_cases rightNull : right = .null
    · subst rightNull
      exact iff_of_true ⟨rfl, Std.ReflCmp.compare_self⟩
        ((deepEqual_atom .null .null rfl).mpr (.same _ rfl))
    · refine iff_of_false (fun both => rightNull ?_) (fun equal => rightNull ?_)
      · cases right with
        | null => rfl
        | _ => cases both.1
      · cases (deepEqual_atom .null right rfl).mp equal
        rfl
  · by_cases rightNull : right = .null
    · subst rightNull
      refine iff_of_false (fun both => leftNull ?_) (fun equal => leftNull ?_)
      · cases left with
        | null => rfl
        | _ => cases both.1
      · cases leftObject : left.isObject with
        | false =>
            cases (deepEqual_atom left .null leftObject).mp equal
            rfl
        | true =>
            rw [deepEqual_container_atom left .null leftObject rfl] at equal
            cases equal
    · have neither : isNullValue left = isNullValue right := by
        cases left <;> cases right <;> first | rfl | contradiction
      rw [and_iff_right neither]
      exact same leftNull rightNull

private theorem memberOf_entry (entries : List (Text × Value)) (entry : Text × Value)
    (nodup : (entries.map Prod.fst).Nodup) (member : entry ∈ entries) :
    memberOf entry.1 (.object entries) = entry.2 := by
  rw [memberOf, lookupEntry_of_mem entries entry.1 entry.2 nodup member]
  rfl

/-- Objects with the same names are equal when they agree name by name. -/
private theorem deepEqual_objects (names : List Text) (left right : List (Text × Value))
    (nodup : names.Nodup) (leftNames : left.map Prod.fst = names)
    (rightNames : right.map Prod.fst = names) :
    deepEqual (.object left) (.object right) = true ↔
      ∀ name ∈ names, deepEqual (memberOf name (.object left)) (memberOf name (.object right)) =
        true := by
  have leftNodup : (left.map Prod.fst).Nodup := leftNames ▸ nodup
  have rightNodup : (right.map Prod.fst).Nodup := rightNames ▸ nodup
  have present (name : Text) (member : name ∈ names) :
      lookupEntry right name = some (memberOf name (.object right)) := by
    have found := (lookupEntry_isSome right name).mpr (rightNames ▸ member)
    obtain ⟨value, isValue⟩ := Option.isSome_iff_exists.mp found
    rw [memberOf, isValue]
    rfl
  rw [deepEqual_containers _ _ rfl rfl]
  constructor
  · rintro ⟨_, each⟩ name member
    obtain ⟨entry, inLeft, rfl⟩ := List.mem_map.mp (leftNames.symm ▸ member)
    obtain ⟨other, isOther, equal⟩ := each entry inLeft
    have sameOther := (present entry.1 member).symm.trans isOther
    rw [memberOf_entry left entry leftNodup inLeft, Option.some.inj sameOther]
    exact equal
  · intro each
    refine ⟨?_, fun entry inLeft => ?_⟩
    · have lengths := congrArg List.length (leftNames.trans rightNames.symm)
      rwa [List.length_map, List.length_map] at lengths
    · have member : entry.1 ∈ names := leftNames ▸ List.mem_map_of_mem inLeft
      refine ⟨_, present entry.1 member, ?_⟩
      have equal := each entry.1 member
      rwa [memberOf_entry left entry leftNodup inLeft] at equal

mutual

/-- Values the engine finds equal are deeply equal, and no others. -/
theorem engineOrder_eq_iff (type : ComparedType) (left right : Value)
    (leftTyped : HasType type left) (rightTyped : HasType type right) :
    engineOrder type left right = .eq ↔ deepEqual left right = true := by
  cases type with
  | number =>
      cases left with
      | number left =>
          cases right with
          | number right =>
              rw [engineOrder, compareOn, compare_eq_iff_eq, deepEqual_numbers]
              rfl
          | _ => cases rightTyped
      | _ => cases leftTyped
  | bigint =>
      cases left with
      | bigint left =>
          cases right with
          | bigint right =>
              rw [engineOrder, compareOn, Std.LawfulEqOrd.compare_eq_iff_eq]
              simp [bigintOf, deepEqual, Value.strictEq]
          | _ => cases rightTyped
      | _ => cases leftTyped
  | bool =>
      cases left with
      | bool left =>
          cases right with
          | bool right =>
              rw [engineOrder, compareOn, Std.LawfulEqOrd.compare_eq_iff_eq]
              simp [boolOf, deepEqual, Value.strictEq]
          | _ => cases rightTyped
      | _ => cases leftTyped
  | string =>
      cases left with
      | string left =>
          cases right with
          | string right =>
              rw [HasType] at leftTyped rightTyped
              rw [engineOrder, compareOn, Std.LawfulEqOrd.compare_eq_iff_eq]
              have injective : utf8Encode left = utf8Encode right ↔ left = right := by
                refine ⟨fun same => ?_, fun same => by rw [same]⟩
                have formed := toWellFormed_of_utf8Encode left right same
                rwa [leftTyped, rightTyped] at formed
              simp [stringOf, injective, deepEqual, Value.strictEq]
          | _ => cases rightTyped
      | _ => cases leftTyped
  | bytes =>
      cases left with
      | bytes left =>
          cases right with
          | bytes right =>
              rw [engineOrder, compareOn, Std.LawfulEqOrd.compare_eq_iff_eq]
              simp [bytesOf, deepEqual]
          | _ => cases rightTyped
      | _ => cases leftTyped
  | list element =>
      cases left with
      | array left =>
          cases right with
          | array right =>
              rw [HasType] at leftTyped rightTyped
              have _ := transCmp_engineOrder element
              have elements (left right : List Value)
                  (leftTyped : ∀ value ∈ left, value ≠ .null → HasType element value)
                  (rightTyped : ∀ value ∈ right, value ≠ .null → HasType element value) :
                  List.compareLex (nullsLast (engineOrder element)) left right = .eq ↔
                    deepEqualElements left right = true := by
                induction left generalizing right with
                | nil => cases right <;> simp [List.compareLex, deepEqualElements]
                | cons head rest ih =>
                    cases right with
                    | nil => simp [List.compareLex, deepEqualElements]
                    | cons other others =>
                        have heads := nullsLast_eq (engineOrder element) head other
                          fun headSome otherSome => engineOrder_eq_iff element head other
                            (leftTyped head List.mem_cons_self headSome)
                            (rightTyped other List.mem_cons_self otherSome)
                        have rests := ih others
                          (fun value member => leftTyped value (List.mem_cons_of_mem _ member))
                          (fun value member => rightTyped value (List.mem_cons_of_mem _ member))
                        rw [List.compareLex_cons_cons, Ordering.then_eq_eq, heads, rests,
                          deepEqualElements, Bool.and_eq_true]
              rw [engineOrder, deepEqual]
              exact elements left right leftTyped rightTyped
          | _ => cases rightTyped
      | _ => cases leftTyped
  | struct fields =>
      cases left with
      | object left =>
          cases right with
          | object right =>
              rw [HasType] at leftTyped rightTyped
              rw [engineOrder, engineMembersOrder_eq_iff fields _ _ leftTyped.2.2 rightTyped.2.2,
                deepEqual_objects _ left right leftTyped.1 leftTyped.2.1 rightTyped.2.1]
          | _ => cases rightTyped
      | _ => cases leftTyped

theorem engineMembersOrder_eq_iff (fields : List (Text × ComparedType)) (left right : Value)
    (leftTyped : HasMembers fields left) (rightTyped : HasMembers fields right) :
    engineMembersOrder fields left right = .eq ↔
      ∀ name ∈ fields.map Prod.fst,
        deepEqual (memberOf name left) (memberOf name right) = true := by
  cases fields with
  | nil => exact iff_of_true rfl fun _ member => absurd member List.not_mem_nil
  | cons field rest =>
      obtain ⟨name, type⟩ := field
      rw [HasMembers] at leftTyped rightTyped
      have _ := transCmp_engineOrder type
      have first := nullsLast_eq (engineOrder type) (memberOf name left) (memberOf name right)
        fun leftSome rightSome => engineOrder_eq_iff type _ _ (leftTyped.1 leftSome)
          (rightTyped.1 rightSome)
      rw [engineMembersOrder, compareLex_eq_eq, first,
        engineMembersOrder_eq_iff rest left right leftTyped.2 rightTyped.2, List.map_cons,
        List.forall_mem_cons]

end

/-! ## `<` -/

private theorem joinedDecimals_cons (byte : UInt8) (rest : Bytes) :
    ∃ ends, joinText (text ",") ((byte :: rest).map fun byte => Number.decimal byte.toNat) =
        Number.decimal byte.toNat ++ ends ∧
      (∀ unit, ends.head? = some unit → unit = 44) ∧
      ends = (match rest with
        | [] => []
        | _ :: _ =>
            44 :: joinText (text ",") (rest.map fun byte => Number.decimal byte.toNat)) := by
  cases rest with
  | nil =>
      refine ⟨[], ?_, nofun, rfl⟩
      simp [joinText]
  | cons next others =>
      refine ⟨_, ?_, ?_, rfl⟩
      · simp only [List.map_cons, joinText, List.append_assoc]
        rfl
      · intro unit isHead
        exact (Option.some.inj isHead).symm

/-- Blobs are compared as the decimals of their bytes. -/
private theorem compare_joinedDecimals (left right : Bytes) :
    Ord.compare (joinText (text ",") (left.map fun byte => Number.decimal byte.toNat))
        (joinText (text ",") (right.map fun byte => Number.decimal byte.toNat)) =
      decideAt (fun first second =>
        Ord.compare (Number.decimal first.toNat) (Number.decimal second.toNat)) left right := by
  have above (byte : UInt8) : ∀ unit ∈ Number.decimal byte.toNat,
      Ord.compare (44 : CodeUnit) unit = .lt := by
    intro unit member
    have range := Number.mem_decimal byte.toNat unit member
    have less : (44 : CodeUnit) < unit := by
      rw [UInt16.lt_iff_toNat_lt]
      exact Nat.lt_of_lt_of_le (by decide) range.1
    exact if_pos less
  induction left generalizing right with
  | nil =>
      cases right with
      | nil => rfl
      | cons other others =>
          obtain ⟨ends, written, _, _⟩ := joinedDecimals_cons other others
          obtain ⟨unit, units, isDecimal⟩ := Number.decimal_head other.toNat
          rw [written, isDecimal]
          exact (Nat.compare_eq_lt.mpr (Nat.succ_pos _)).symm
  | cons head rest ih =>
      obtain ⟨ends, written, separated, isEnds⟩ := joinedDecimals_cons head rest
      cases right with
      | nil =>
          obtain ⟨unit, units, isDecimal⟩ := Number.decimal_head head.toNat
          rw [written, isDecimal]
          exact (Nat.compare_eq_gt.mpr (Nat.succ_pos _)).symm
      | cons other others =>
          obtain ⟨otherEnds, otherWritten, otherSeparated, isOtherEnds⟩ :=
            joinedDecimals_cons other others
          rw [written, otherWritten]
          by_cases same : head = other
          · subst same
            rw [compare_append_left, decideAt_cons_same, ← ih others, isEnds, isOtherEnds]
            cases rest with
            | nil =>
                cases others with
                | nil => rfl
                | cons next more =>
                    obtain ⟨_, nextWritten, _, _⟩ := joinedDecimals_cons next more
                    obtain ⟨unit, units, isDecimal⟩ := Number.decimal_head next.toNat
                    rw [nextWritten, isDecimal]
                    rfl
            | cons next more =>
                cases others with
                | nil =>
                    obtain ⟨_, nextWritten, _, _⟩ := joinedDecimals_cons next more
                    obtain ⟨unit, units, isDecimal⟩ := Number.decimal_head next.toNat
                    rw [nextWritten, isDecimal]
                    rfl
                | cons otherNext otherMore =>
                    rw [List.compare_cons_cons, Std.ReflOrd.compare_self]
                    rfl
          · have different : Number.decimal head.toNat ≠ Number.decimal other.toNat := fun equal =>
              same (UInt8.toNat.inj (Number.decimal_injective _ _ equal))
            rw [decideAt_cons_ne _ _ _ _ _ same,
              compare_append_delimited 44 _ _ _ _ (above head) (above other) separated
                otherSeparated different]

/-! ## Where the orders agree -/

/-- The relation an operator stands for. -/
def ComparisonOp.holds : ComparisonOp → Ordering → Bool
  | .eq, order | .notDistinctFrom, order => order == .eq
  | .ne, order | .distinctFrom, order => order != .eq
  | .lt, order => order == .lt
  | .le, order => order != .gt
  | .gt, order => order == .gt
  | .ge, order => order != .lt

/-- `orderedCompare` gives this order, and the operators are its relations. -/
structure ComparesAs (left right : Value) (order : Ordering) : Prop where
  ordered : orderedCompare left right = order
  operators : ∀ op : ComparisonOp, compare left right op = .bool (op.holds order)

/-- The decimals of the first two bytes that differ are ordered as the bytes. -/
def DigitsInOrder (left right : Bytes) : Prop :=
  ∀ first second, firstDifference left right = some (first, second) →
    Ord.compare (Number.decimal first.toNat) (Number.decimal second.toNat) =
      Ord.compare first second

/-- An element as `join` writes it, `null` as nothing. -/
def itemText : Value → Text
  | .null => []
  | value => value.toText

/-- What the text of a list has behind an element: a comma and the elements that follow, or
nothing. -/
def textBehind : List Value → Text
  | [] => []
  | rest => 44 :: joinText (text ",") (Value.elementTexts rest)

/-- The first unequal elements of two lists, each with the elements behind it. -/
def firstUnequal : List Value → List Value → Option ((Value × List Value) × Value × List Value)
  | left :: leftRest, right :: rightRest =>
      if deepEqual left right then firstUnequal leftRest rightRest
      else some ((left, leftRest), right, rightRest)
  | _, _ => none

/-- The first two units that differ are in this order; without such units the text that ends
first is the lesser one. -/
def UnitsInOrder (order : Ordering) (left right : Text) : Prop :=
  match firstDifference left right with
  | some (first, second) => Ord.compare first second = order
  | none => left.length < right.length ↔ order = .lt

/-- The first unequal elements are ordered as their texts are, each with what is behind it;
where there are none, the empty list is compared with no list whose text is empty too. -/
def ElementsInOrder (order : Value → Value → Ordering) (left right : List Value) : Prop :=
  match firstUnequal left right with
  | some ((first, rest), second, others) =>
      UnitsInOrder (order first second) (itemText first ++ textBehind rest)
        (itemText second ++ textBehind others)
  | none => left = [] → right ≠ [] → joinText (text ",") (Value.elementTexts right) ≠ []

/-- Text has no surrogate pair against a high unit where it first differs, blobs have bytes whose
decimals are in order there, lists have elements whose texts are in order there, and a struct
is not compared with a greater one. -/
def ComparedInOrder : ComparedType → Value → Value → Prop
  | .number, _, _ | .bigint, _, _ | .bool, _, _ => True
  | .string, left, right => ScalarsInOrder (stringOf left) (stringOf right)
  | .bytes, left, right => DigitsInOrder (bytesOf left) (bytesOf right)
  | .list element, left, right =>
      ElementsInOrder (nullsLast (engineOrder element)) (elementsOf left) (elementsOf right)
  | .struct fields, left, right => engineOrder (.struct fields) left right ≠ .lt

section

variable (left right : Value) (order : Ordering)

private theorem comparesAs_iff (leftSome : left ≠ .null) (rightSome : right ≠ .null)
    (same : order = .eq ↔ deepEqual left right = true) :
    ComparesAs left right order ↔ orderedCompare left right = order := by
  refine ⟨fun agrees => agrees.ordered, fun ordered => ⟨ordered, fun op => ?_⟩⟩
  have leftNotNull : isNullValue left = false := by cases left <;> first | rfl | contradiction
  have rightNotNull : isNullValue right = false := by cases right <;> first | rfl | contradiction
  have equal : deepEqual left right = (order == .eq) := by
    rw [Bool.eq_iff_iff, ← same, beq_iff_eq]
  cases op <;>
    simp [compare, ComparisonOp.holds, leftNotNull, rightNotNull, ordered, equal, bne]

private theorem orderedCompare_iff (notNumber : ∀ number, left ≠ .number number)
    (same : order = .eq ↔ deepEqual left right = true) :
    orderedCompare left right = order ↔
      order = .eq ∨ (left.less right = true ↔ order = .lt) := by
  have opened : orderedCompare left right =
      if deepEqual left right then .eq else if left.less right then .lt else .gt := by
    unfold orderedCompare
    split
    · exact absurd rfl (notNumber _)
    · rfl
  rw [opened]
  cases order with
  | eq => simp [same.mp rfl]
  | lt =>
      have unequal : deepEqual left right ≠ true := fun equal => by cases same.mpr equal
      simp [unequal]
  | gt =>
      have unequal : deepEqual left right ≠ true := fun equal => by cases same.mpr equal
      simp [unequal]

end

private theorem orderedCompare_numbers (left right : Number) :
    orderedCompare (.number left) (.number right) = Ord.compare left.rank right.rank := by
  unfold orderedCompare
  dsimp only
  cases leftNan : left.isNaN with
  | true =>
      obtain rfl := Number.eq_nan_of_isNaN left leftNan
      cases rightNan : right.isNaN with
      | true =>
          obtain rfl := Number.eq_nan_of_isNaN right rightNan
          exact (compare_eq_iff_eq.mpr rfl).symm
      | false => exact (compare_gt_iff_gt.mpr (Number.rank_lt_nan right rightNan)).symm
  | false =>
      cases rightNan : right.isNaN with
      | true =>
          obtain rfl := Number.eq_nan_of_isNaN right rightNan
          exact (compare_lt_iff_lt.mpr (Number.rank_lt_nan left leftNan)).symm
      | false =>
          have less : (Value.number left).less (.number right) = true ↔ left.rank < right.rank :=
            (Number.less_iff_rank left right).trans (and_iff_left rightNan)
          rw [Bool.or_self, if_neg (by decide)]
          rcases lt_trichotomy left.rank right.rank with before | same | after
          · rw [if_neg (fun equal => before.ne ((deepEqual_numbers left right).mp equal)),
              if_pos (less.mpr before), compare_lt_iff_lt.mpr before]
          · rw [if_pos ((deepEqual_numbers left right).mpr same), compare_eq_iff_eq.mpr same]
          · rw [if_neg (fun equal => after.ne' ((deepEqual_numbers left right).mp equal)),
              if_neg (fun isLess => after.not_gt (less.mp isLess)), compare_gt_iff_gt.mpr after]

/-- Two texts that are compared one way and ordered another. -/
private theorem less_iff_same (units engine : Ordering) (equal : units = .eq ↔ engine = .eq) :
    (engine = .eq ∨ (units = .lt ↔ engine = .lt)) ↔ units = engine := by
  cases units <;> cases engine <;> simp at equal ⊢

/-! ## Lists as texts -/

private theorem elementTexts_cons (element : Value) (rest : List Value) :
    Value.elementTexts (element :: rest) = itemText element :: Value.elementTexts rest := by
  cases element <;> rfl

private theorem joined_cons (element : Value) (rest : List Value) :
    joinText (text ",") (Value.elementTexts (element :: rest)) =
      itemText element ++ textBehind rest := by
  rw [elementTexts_cons]
  cases rest with
  | nil => simp [joinText, textBehind, Value.elementTexts]
  | cons next others =>
      have behind : textBehind (next :: others) =
          44 :: joinText (text ",") (Value.elementTexts (next :: others)) := rfl
      rw [behind, elementTexts_cons]
      exact List.append_assoc (itemText element) (text ",") _

private theorem toText_of_same_rank (left right : Number) (same : left.rank = right.rank) :
    left.toText = right.toText := by
  have zero (value : { value : ℚ // IsBinary64 value }) (isZero : value.val = 0) :
      (Number.finite value).toText = text "0" := by
    have whole : Number.finite value = Number.zero := congrArg Number.finite (Subtype.ext isZero)
    rw [whole]
    decide +kernel
  cases left with
  | nan =>
      cases right with
      | infinity rightNegative => cases rightNegative <;> simp [Number.rank] at same
      | _ => simp [Number.rank] at same ⊢
  | infinity leftNegative =>
      cases right with
      | infinity rightNegative =>
          cases leftNegative <;> cases rightNegative <;> simp [Number.rank] at same ⊢
      | _ => cases leftNegative <;> simp [Number.rank] at same
  | negativeZero =>
      cases right with
      | infinity rightNegative => cases rightNegative <;> simp [Number.rank] at same
      | finite value =>
          simp only [Number.rank, toLex_inj, Prod.mk.injEq, true_and] at same
          rw [zero value same.symm]
          rfl
      | _ => simp [Number.rank] at same ⊢
  | finite value =>
      cases right with
      | infinity rightNegative => cases rightNegative <;> simp [Number.rank] at same
      | negativeZero =>
          simp only [Number.rank, toLex_inj, Prod.mk.injEq, true_and] at same
          rw [zero value same]
          rfl
      | finite other =>
          simp only [Number.rank, toLex_inj, Prod.mk.injEq, true_and] at same
          rw [Subtype.ext same]
      | nan => simp [Number.rank] at same

private theorem itemText_of_equal (type : ComparedType)
    (texts : ∀ left right, HasType type left → HasType type right →
      deepEqual left right = true → left.toText = right.toText)
    (left right : Value) (leftTyped : left ≠ .null → HasType type left)
    (rightTyped : right ≠ .null → HasType type right) (equal : deepEqual left right = true) :
    itemText left = itemText right := by
  by_cases leftNull : left = .null
  · subst leftNull
    cases (deepEqual_atom .null right rfl).mp equal
    rfl
  · by_cases rightNull : right = .null
    · subst rightNull
      cases leftObject : left.isObject with
      | false =>
          cases (deepEqual_atom left .null leftObject).mp equal
          rfl
      | true =>
          rw [deepEqual_container_atom left .null leftObject rfl] at equal
          cases equal
    · have written (value : Value) (notNull : value ≠ .null) : itemText value = value.toText := by
        cases value with
        | null => exact absurd rfl notNull
        | _ => rfl
      rw [written left leftNull, written right rightNull]
      exact texts left right (leftTyped leftNull) (rightTyped rightNull) equal

private theorem elementTexts_of_equal (type : ComparedType)
    (items : ∀ left right, (left ≠ .null → HasType type left) →
      (right ≠ .null → HasType type right) → deepEqual left right = true →
        itemText left = itemText right)
    (left right : List Value) (leftTyped : ∀ value ∈ left, value ≠ .null → HasType type value)
    (rightTyped : ∀ value ∈ right, value ≠ .null → HasType type value)
    (equal : deepEqualElements left right = true) :
    Value.elementTexts left = Value.elementTexts right := by
  induction left generalizing right with
  | nil =>
      cases right with
      | nil => rfl
      | cons other others => simp [deepEqualElements] at equal
  | cons head rest ih =>
      cases right with
      | nil => simp [deepEqualElements] at equal
      | cons other others =>
          rw [deepEqualElements, Bool.and_eq_true] at equal
          rw [elementTexts_cons, elementTexts_cons,
            items head other (leftTyped head List.mem_cons_self)
              (rightTyped other List.mem_cons_self) equal.1,
            ih others (fun value member => leftTyped value (List.mem_cons_of_mem _ member))
              (fun value member => rightTyped value (List.mem_cons_of_mem _ member)) equal.2]

/-- Equal values of a type have one text. -/
private theorem toText_of_equal (type : ComparedType) (left right : Value)
    (leftTyped : HasType type left) (rightTyped : HasType type right)
    (equal : deepEqual left right = true) : left.toText = right.toText := by
  cases type with
  | number =>
      cases left with
      | number left =>
          cases right with
          | number right => exact toText_of_same_rank left right ((deepEqual_numbers _ _).mp equal)
          | _ => cases rightTyped
      | _ => cases leftTyped
  | list element =>
      cases left with
      | array left =>
          cases right with
          | array right =>
              rw [HasType] at leftTyped rightTyped
              rw [deepEqual] at equal
              exact congrArg (joinText (text ",")) (elementTexts_of_equal element
                (itemText_of_equal element (toText_of_equal element)) left right leftTyped
                rightTyped equal)
          | _ => cases rightTyped
      | _ => cases leftTyped
  | struct fields =>
      cases left with
      | object left =>
          cases right with
          | object right => rfl
          | _ => cases rightTyped
      | _ => cases leftTyped
  | _ =>
      cases left <;> cases right <;>
        first | (simp [HasType] at leftTyped; done) | (simp [HasType] at rightTyped; done) | skip
      all_goals simp [deepEqual, Value.strictEq] at equal
      all_goals rw [equal]
termination_by structural type

private theorem unitsInOrder_iff (order : Ordering) (left right : Text) (decided : order ≠ .eq) :
    (Ord.compare left right = .lt ↔ order = .lt) ↔ UnitsInOrder order left right := by
  rw [compare_eq_decideAt, decideAt, UnitsInOrder]
  cases found : firstDifference left right with
  | none => exact iff_congr Nat.compare_eq_lt Iff.rfl
  | some pair =>
      obtain ⟨first, second⟩ := pair
      have different := firstDifference_ne left right first second found
      have notEq : Ord.compare first second ≠ .eq := fun equal =>
        different (Std.LawfulEqOrd.eq_of_compare equal)
      dsimp only
      cases units : Ord.compare first second <;> cases order <;> simp_all

private theorem nullsLast_eq_iff (element : ComparedType) (left right : Value)
    (leftTyped : left ≠ .null → HasType element left)
    (rightTyped : right ≠ .null → HasType element right) :
    nullsLast (engineOrder element) left right = .eq ↔ deepEqual left right = true := by
  have _ := transCmp_engineOrder element
  exact nullsLast_eq (engineOrder element) left right fun leftSome rightSome =>
    engineOrder_eq_iff element left right (leftTyped leftSome) (rightTyped rightSome)

private theorem textBehind_cons (element : Value) (rest : List Value) :
    textBehind (element :: rest) = 44 :: (itemText element ++ textBehind rest) := by
  rw [← joined_cons]
  rfl

/-- Behind a common element the texts of two lists are decided at the first unequal ones. -/
private theorem textBehind_iff (element : ComparedType) (left right : List Value)
    (leftTyped : ∀ value ∈ left, value ≠ .null → HasType element value)
    (rightTyped : ∀ value ∈ right, value ≠ .null → HasType element value) :
    (List.compareLex (nullsLast (engineOrder element)) left right = .eq ∨
        (Ord.compare (textBehind left) (textBehind right) = .lt ↔
          List.compareLex (nullsLast (engineOrder element)) left right = .lt)) ↔
      ∀ first rest second others,
        firstUnequal left right = some ((first, rest), second, others) →
          UnitsInOrder (nullsLast (engineOrder element) first second)
            (itemText first ++ textBehind rest) (itemText second ++ textBehind others) := by
  induction left generalizing right with
  | nil =>
      refine iff_of_true ?_ (by simp [firstUnequal])
      cases right with
      | nil => exact Or.inl rfl
      | cons other others => exact Or.inr (iff_of_true rfl rfl)
  | cons head rest ih =>
      cases right with
      | nil => exact iff_of_true (Or.inr (by simp [textBehind, List.compareLex])) (by simp [firstUnequal])
      | cons other others =>
          have heads := nullsLast_eq_iff element head other (leftTyped head List.mem_cons_self)
            (rightTyped other List.mem_cons_self)
          rw [textBehind_cons, textBehind_cons, List.compare_cons_cons, Std.ReflOrd.compare_self,
            List.compareLex_cons_cons, firstUnequal]
          by_cases equal : deepEqual head other = true
          · have same := itemText_of_equal element (toText_of_equal element) head other
              (leftTyped head List.mem_cons_self) (rightTyped other List.mem_cons_self) equal
            rw [if_pos equal, heads.mpr equal, same, Ordering.eq_then, Ordering.eq_then,
              compare_append_left]
            exact ih others (fun value member => leftTyped value (List.mem_cons_of_mem _ member))
              (fun value member => rightTyped value (List.mem_cons_of_mem _ member))
          · have decided : nullsLast (engineOrder element) head other ≠ .eq :=
              fun isEq => equal (heads.mp isEq)
            have first : (nullsLast (engineOrder element) head other).then
                (List.compareLex (nullsLast (engineOrder element)) rest others) =
                  nullsLast (engineOrder element) head other := by
              cases order : nullsLast (engineOrder element) head other with
              | eq => exact absurd order decided
              | _ => rfl
            rw [if_neg equal, first, Ordering.eq_then, or_iff_right decided,
              unitsInOrder_iff _ _ _ decided]
            constructor
            · rintro inOrder _ _ _ _ ⟨⟩
              exact inOrder
            · intro each
              exact each head rest other others rfl

/-- Lists are compared as texts in their order exactly when their elements are. -/
private theorem joined_iff (element : ComparedType) (left right : List Value)
    (leftTyped : ∀ value ∈ left, value ≠ .null → HasType element value)
    (rightTyped : ∀ value ∈ right, value ≠ .null → HasType element value) :
    (List.compareLex (nullsLast (engineOrder element)) left right = .eq ∨
        (Ord.compare (joinText (text ",") (Value.elementTexts left))
            (joinText (text ",") (Value.elementTexts right)) = .lt ↔
          List.compareLex (nullsLast (engineOrder element)) left right = .lt)) ↔
      ElementsInOrder (nullsLast (engineOrder element)) left right := by
  cases left with
  | nil =>
      cases right with
      | nil => exact iff_of_true (Or.inl rfl) (by simp [ElementsInOrder, firstUnequal])
      | cons other others =>
          have before : List.compareLex (nullsLast (engineOrder element)) [] (other :: others) =
            .lt := rfl
          have nothing : joinText (text ",") (Value.elementTexts []) = [] := rfl
          rw [before, nothing]
          cases joined : joinText (text ",") (Value.elementTexts (other :: others)) with
          | nil => simp [ElementsInOrder, firstUnequal, joined]
          | cons unit units => simp [ElementsInOrder, firstUnequal, joined]
  | cons head rest =>
      cases right with
      | nil =>
          refine iff_of_true (Or.inr (iff_of_false ?_ (by simp [List.compareLex])))
            (by simp [ElementsInOrder, firstUnequal])
          have nothing : joinText (text ",") (Value.elementTexts []) = [] := rfl
          rw [nothing]
          cases joinText (text ",") (Value.elementTexts (head :: rest)) <;> simp
      | cons other others =>
          have behind := textBehind_iff element (head :: rest) (other :: others) leftTyped rightTyped
          rw [textBehind_cons, textBehind_cons, List.compare_cons_cons, Std.ReflOrd.compare_self,
            Ordering.eq_then, ← joined_cons, ← joined_cons] at behind
          rw [behind, ElementsInOrder]
          cases found : firstUnequal (head :: rest) (other :: others) with
          | none => simp
          | some unequal =>
              obtain ⟨⟨first, after⟩, second, otherAfter⟩ := unequal
              constructor
              · intro each
                exact each first after second otherAfter rfl
              · rintro inOrder _ _ _ _ ⟨⟩
                exact inOrder

theorem orderedCompare_agrees_iff (type : ComparedType) (left right : Value)
    (leftTyped : HasType type left) (rightTyped : HasType type right) :
    orderedCompare left right = engineOrder type left right ↔ ComparedInOrder type left right := by
  have same := engineOrder_eq_iff type left right leftTyped rightTyped
  cases type with
  | number =>
      cases left with
      | number left =>
          cases right with
          | number right =>
              rw [engineOrder]
              exact iff_of_true (orderedCompare_numbers left right) trivial
          | _ => cases rightTyped
      | _ => cases leftTyped
  | bigint =>
      cases left with
      | bigint left =>
          cases right with
          | bigint right =>
              rw [orderedCompare_iff (.bigint left) (.bigint right) _ nofun same]
              refine iff_of_true (.inr ?_) trivial
              rw [engineOrder]
              exact decide_eq_true_iff.trans compare_lt_iff_lt.symm
          | _ => cases rightTyped
      | _ => cases leftTyped
  | bool =>
      cases left with
      | bool left =>
          cases right with
          | bool right =>
              rw [orderedCompare_iff (.bool left) (.bool right) _ nofun same]
              refine iff_of_true (.inr ?_) trivial
              rw [engineOrder]
              cases left <;> cases right <;> decide +kernel
          | _ => cases rightTyped
      | _ => cases leftTyped
  | string =>
      cases left with
      | string left =>
          cases right with
          | string right =>
              rw [HasType] at leftTyped rightTyped
              rw [orderedCompare_iff (.string left) (.string right) _ nofun same, ComparedInOrder,
                stringOf, stringOf, ← compare_units_eq_utf8_iff left right leftTyped rightTyped]
              have less : (Value.string left).less (.string right) = textLess left right := rfl
              rw [less, textLess_iff]
              rw [engineOrder] at same ⊢
              refine less_iff_same _ _ ?_
              rw [Std.LawfulEqOrd.compare_eq_iff_eq]
              refine Iff.trans ?_ same.symm
              simp [deepEqual, Value.strictEq]
          | _ => cases rightTyped
      | _ => cases leftTyped
  | bytes =>
      cases left with
      | bytes left =>
          cases right with
          | bytes right =>
              rw [orderedCompare_iff (.bytes left) (.bytes right) _ nofun same, ComparedInOrder,
                DigitsInOrder, ← decideAt_eq_decideAt]
              have less : (Value.bytes left).less (.bytes right) =
                  textLess (Value.bytes left).toText (Value.bytes right).toText := rfl
              rw [less, textLess_iff, Value.toText, Value.toText, compare_joinedDecimals]
              rw [engineOrder] at same ⊢
              have bytewise : compareOn bytesOf (.bytes left) (.bytes right) =
                  decideAt Ord.compare left right := compare_eq_decideAt left right
              rw [bytewise] at same ⊢
              refine less_iff_same _ _ ?_
              rw [← compare_eq_decideAt, Std.LawfulEqOrd.compare_eq_iff_eq, decideAt_eq_iff]
              intro first second different equal
              exact different (UInt8.toNat.inj (Number.decimal_injective _ _
                (Std.LawfulEqOrd.eq_of_compare equal)))
          | _ => cases rightTyped
      | _ => cases leftTyped
  | list element =>
      cases left with
      | array left =>
          cases right with
          | array right =>
              rw [HasType] at leftTyped rightTyped
              have less : (Value.array left).less (.array right) =
                  textLess (Value.array left).toText (Value.array right).toText := rfl
              rw [orderedCompare_iff (.array left) (.array right) _ nofun same, ComparedInOrder,
                less, textLess_iff, engineOrder]
              exact joined_iff element left right leftTyped rightTyped
          | _ => cases rightTyped
      | _ => cases leftTyped
  | struct fields =>
      cases left with
      | object left =>
          cases right with
          | object right =>
              rw [orderedCompare_iff (.object left) (.object right) _ nofun same, ComparedInOrder]
              have less : (Value.object left).less (.object right) = false :=
                (by decide +kernel : textLess (text "[object Object]") (text "[object Object]") =
                  false)
              rw [less]
              cases engineOrder (.struct fields) (.object left) (.object right) <;> simp
          | _ => cases rightTyped
      | _ => cases leftTyped

end VgiWorker.FilterPushdown
