import VgiWorker.Codec.CodePoints
import VgiWorker.Data.KeyedSort
import VgiWorker.Js.Number

/-!
# The order of map keys

Numeric keys are compared as numbers, all other keys as strings by code points.
-/

set_option autoImplicit false

namespace VgiWorker.Codec

open Js Arrow
open KeyedSort (Separates)

def numericKey? : Rich → Option Value
  | .number value => some (.number value)
  | .bigint value => some (.bigint value)
  | _ => none

def isNumericKey (key : Rich) : Bool :=
  (numericKey? key).isSome

section

variable (dateText : Number → Text)

/-- `compareKeys(left, right)`. -/
def compareKeys (left right : Rich) : Int :=
  match left, right with
  | .string left, .string right => compareCodePoints left right
  | _, _ =>
      match numericKey? left, numericKey? right with
      | some leftValue, some rightValue =>
          if leftValue.less rightValue then -1 else if rightValue.less leftValue then 1 else 0
      | _, _ => compareCodePoints (left.toText dateText) (right.toText dateText)

/-- Keys of one kind, no two of which are the same to the comparison. -/
structure SortableKeys (keys : List Rich) : Prop where
  oneKind : (∀ key ∈ keys, isNumericKey key = true) ∨ ∀ key ∈ keys, isNumericKey key = false
  noNaN : ∀ key ∈ keys, key ≠ .number .nan
  distinct : keys.Pairwise fun left right => compareKeys dateText left right ≠ 0

/-- Keys that are not both numbers are compared as strings. -/
theorem compareKeys_texts (left right : Rich)
    (apart : isNumericKey left = false ∨ isNumericKey right = false) :
    compareKeys dateText left right =
      compareCodePoints (left.toText dateText) (right.toText dateText) := by
  unfold compareKeys
  split
  · rfl
  · split
    · rename_i foundLeft foundRight
      rw [isNumericKey, isNumericKey, foundLeft, foundRight] at apart
      cases apart with
      | inl left => cases left
      | inr right => cases right
    · rfl

private theorem compareKeys_values (left right : Rich) (leftValue rightValue : Value)
    (isLeft : numericKey? left = some leftValue) (isRight : numericKey? right = some rightValue) :
    compareKeys dateText left right =
      if leftValue.less rightValue then -1 else if rightValue.less leftValue then 1 else 0 := by
  unfold compareKeys
  split
  · cases isLeft
  · rw [isLeft, isRight]

/-! ## Numeric keys -/

/-- The place of a numeric key. -/
def keyPlace : Rich → Nat ×ₗ ℚ
  | .number value => value.rank
  | .bigint value => toLex (1, (value : ℚ))
  | _ => toLex (0, 0)

private theorem bigintLess_iff (left : Int) (right : Number) (notNaN : right ≠ .nan) :
    Value.bigintLess left right = true ↔ toLex (1, (left : ℚ)) < right.rank := by
  cases right with
  | nan => exact absurd rfl notNaN
  | infinity negative => cases negative <;> simp [Value.bigintLess, Number.rank, Number.rank_lt]
  | _ => simp [Value.bigintLess, Number.rank, Number.toRat?, Number.rank_lt]

private theorem lessBigint_iff (left : Number) (right : Int) (notNaN : left ≠ .nan) :
    Value.lessBigint left right = true ↔ left.rank < toLex (1, (right : ℚ)) := by
  cases left with
  | nan => exact absurd rfl notNaN
  | infinity negative => cases negative <;> simp [Value.lessBigint, Number.rank, Number.rank_lt]
  | _ => simp [Value.lessBigint, Number.rank, Number.toRat?, Number.rank_lt]

private theorem isNaN_eq_false (number : Number) (notNaN : number ≠ .nan) :
    number.isNaN = false := by
  cases number with
  | nan => exact absurd rfl notNaN
  | _ => rfl

private theorem less_iff_place (left right : Rich) (leftValue rightValue : Value)
    (isLeft : numericKey? left = some leftValue) (isRight : numericKey? right = some rightValue)
    (leftNotNaN : left ≠ .number .nan) (rightNotNaN : right ≠ .number .nan) :
    leftValue.less rightValue = true ↔ keyPlace left < keyPlace right := by
  cases left with
  | number leftNumber =>
      cases isLeft
      have leftReal : leftNumber ≠ .nan := fun same => leftNotNaN (congrArg _ same)
      cases right with
      | number rightNumber =>
          cases isRight
          have rightReal : rightNumber ≠ .nan := fun same => rightNotNaN (congrArg _ same)
          exact (Number.less_iff_rank leftNumber rightNumber).trans
            (and_iff_left (isNaN_eq_false rightNumber rightReal))
      | bigint rightInt =>
          cases isRight
          exact lessBigint_iff leftNumber rightInt leftReal
      | _ => cases isRight
  | bigint leftInt =>
      cases isLeft
      cases right with
      | number rightNumber =>
          cases isRight
          exact bigintLess_iff leftInt rightNumber fun same => rightNotNaN (congrArg _ same)
      | bigint rightInt =>
          cases isRight
          simp [Value.less, Value.toPrimitive, Value.isObject, keyPlace, Number.rank_lt]
      | _ => cases isRight
  | _ => cases isLeft

/-- Numeric keys are compared by their places. -/
theorem compareKeys_numbers (left right : Rich) (leftNumeric : isNumericKey left = true)
    (rightNumeric : isNumericKey right = true) (leftNotNaN : left ≠ .number .nan)
    (rightNotNaN : right ≠ .number .nan) :
    compareKeys dateText left right ≤ 0 ↔ keyPlace left ≤ keyPlace right := by
  obtain ⟨leftValue, isLeft⟩ := Option.isSome_iff_exists.mp leftNumeric
  obtain ⟨rightValue, isRight⟩ := Option.isSome_iff_exists.mp rightNumeric
  have before := less_iff_place left right leftValue rightValue isLeft isRight leftNotNaN rightNotNaN
  have after := less_iff_place right left rightValue leftValue isRight isLeft rightNotNaN leftNotNaN
  rw [compareKeys_values dateText left right _ _ isLeft isRight]
  by_cases less : keyPlace left < keyPlace right
  · rw [if_pos (before.mpr less)]
    exact iff_of_true (by decide) less.le
  · rw [if_neg fun lessValue => less (before.mp lessValue)]
    by_cases greater : keyPlace right < keyPlace left
    · rw [if_pos (after.mpr greater)]
      exact iff_of_false (by decide) (not_le.mpr greater)
    · rw [if_neg fun greaterValue => greater (after.mp greaterValue)]
      exact iff_of_true le_rfl (not_lt.mp greater)

/-! ## The comparison -/

theorem compareKeys_swap (left right : Rich) (leftNotNaN : left ≠ .number .nan)
    (rightNotNaN : right ≠ .number .nan) :
    compareKeys dateText right left = -compareKeys dateText left right := by
  cases leftNumeric : isNumericKey left with
  | false =>
      rw [compareKeys_texts dateText left right (.inl leftNumeric),
        compareKeys_texts dateText right left (.inr leftNumeric), compareCodePoints_swap]
  | true =>
      cases rightNumeric : isNumericKey right with
      | false =>
          rw [compareKeys_texts dateText left right (.inr rightNumeric),
            compareKeys_texts dateText right left (.inl rightNumeric), compareCodePoints_swap]
      | true =>
          obtain ⟨leftValue, isLeft⟩ := Option.isSome_iff_exists.mp leftNumeric
          obtain ⟨rightValue, isRight⟩ := Option.isSome_iff_exists.mp rightNumeric
          have before :=
            less_iff_place left right _ _ isLeft isRight leftNotNaN rightNotNaN
          have after := less_iff_place right left _ _ isRight isLeft rightNotNaN leftNotNaN
          rw [compareKeys_values dateText left right _ _ isLeft isRight,
            compareKeys_values dateText right left _ _ isRight isLeft]
          cases less : leftValue.less rightValue with
          | true =>
              have notAfter : ¬rightValue.less leftValue = true := fun greater =>
                lt_asymm (before.mp less) (after.mp greater)
              rw [if_neg notAfter]
              rfl
          | false => cases rightValue.less leftValue with | true => rfl | false => rfl

private theorem keysLe_values (left right : Rich) (leftValue rightValue : Value)
    (isLeft : numericKey? left = some leftValue) (isRight : numericKey? right = some rightValue) :
    keysLe dateText left right = !(rightValue.less leftValue) := by
  cases left with
  | number leftNumber =>
      cases isLeft
      cases right with
      | number rightNumber => cases isRight; rfl
      | bigint rightInt => cases isRight; rfl
      | _ => cases isRight
  | bigint leftInt =>
      cases isLeft
      cases right with
      | number rightNumber => cases isRight; rfl
      | bigint rightInt =>
          cases isRight
          rw [Bool.eq_iff_iff]
          simp [keysLe, Value.less, Value.toPrimitive, Value.isObject]
      | _ => cases isRight
  | _ => cases isLeft

private theorem keysLe_texts (left right : Rich)
    (apart : isNumericKey left = false ∨ isNumericKey right = false) :
    keysLe dateText left right =
      codePointsLe (left.toText dateText) (right.toText dateText) := by
  have notBoth : ¬(isNumericKey left = true ∧ isNumericKey right = true) := fun both => by
    cases apart with
    | inl leftText => cases leftText.symm.trans both.1
    | inr rightText => cases rightText.symm.trans both.2
  unfold keysLe
  split
  · rfl
  · exact absurd ⟨rfl, rfl⟩ notBoth
  · exact absurd ⟨rfl, rfl⟩ notBoth
  · exact absurd ⟨rfl, rfl⟩ notBoth
  · exact absurd ⟨rfl, rfl⟩ notBoth
  · rfl

/-- What the sort is given is the sign of the comparison. -/
theorem keysLe_iff (left right : Rich) (leftNotNaN : left ≠ .number .nan)
    (rightNotNaN : right ≠ .number .nan) :
    keysLe dateText left right = true ↔ compareKeys dateText left right ≤ 0 := by
  by_cases numeric : isNumericKey left = true ∧ isNumericKey right = true
  · obtain ⟨leftValue, isLeft⟩ := Option.isSome_iff_exists.mp numeric.1
    obtain ⟨rightValue, isRight⟩ := Option.isSome_iff_exists.mp numeric.2
    have after := less_iff_place right left _ _ isRight isLeft rightNotNaN leftNotNaN
    rw [keysLe_values dateText left right _ _ isLeft isRight,
      compareKeys_numbers dateText left right numeric.1 numeric.2 leftNotNaN rightNotNaN, ← not_lt,
      ← after, Bool.not_eq_true', Bool.not_eq_true]
  · have apart : isNumericKey left = false ∨ isNumericKey right = false :=
      (not_and_or.mp numeric).imp Bool.eq_false_iff.mpr Bool.eq_false_iff.mpr
    rw [keysLe_texts dateText left right apart, compareKeys_texts dateText left right apart,
      codePointsLe_iff]

/-! ## Sorting -/

/-- The comparison orders sortable keys. -/
theorem SortableKeys.separates {dateText : Number → Text} {keys : List Rich}
    (sortable : SortableKeys dateText keys) : Separates (keysLe dateText) keys := by
  have noNaN := sortable.noNaN
  have compares (left : Rich) (isLeft : left ∈ keys) (right : Rich) (isRight : right ∈ keys) :=
    keysLe_iff dateText left right (noNaN left isLeft) (noNaN right isRight)
  refine ⟨fun first isFirst second isSecond third isThird before after => ?_,
    fun first isFirst second isSecond => ?_, ?_⟩
  · rw [compares _ isFirst _ isSecond] at before
    rw [compares _ isSecond _ isThird] at after
    rw [compares _ isFirst _ isThird]
    cases sortable.oneKind with
    | inl numbers =>
        rw [compareKeys_numbers dateText _ _ (numbers _ isFirst) (numbers _ isSecond)
          (noNaN _ isFirst) (noNaN _ isSecond)] at before
        rw [compareKeys_numbers dateText _ _ (numbers _ isSecond) (numbers _ isThird)
          (noNaN _ isSecond) (noNaN _ isThird)] at after
        rw [compareKeys_numbers dateText _ _ (numbers _ isFirst) (numbers _ isThird)
          (noNaN _ isFirst) (noNaN _ isThird)]
        exact le_trans before after
    | inr texts =>
        rw [compareKeys_texts dateText _ _ (.inl (texts _ isFirst))] at before ⊢
        rw [compareKeys_texts dateText _ _ (.inl (texts _ isSecond))] at after
        exact compareCodePoints_trans _ _ _ before after
  · rw [Bool.or_eq_true, compares _ isFirst _ isSecond, compares _ isSecond _ isFirst,
      compareKeys_swap dateText first second (noNaN _ isFirst) (noNaN _ isSecond)]
    omega
  · refine sortable.distinct.imp_of_mem fun isFirst isSecond different both => different ?_
    rw [compares _ isFirst _ isSecond, compares _ isSecond _ isFirst,
      compareKeys_swap dateText _ _ (noNaN _ isFirst) (noNaN _ isSecond)] at both
    omega

/-- The names of an object's members are sortable. -/
theorem sortableKeys_strings (keys : List Text) (nodup : keys.Nodup) :
    SortableKeys dateText (keys.map .string) where
  oneKind := .inr (List.forall_mem_map.mpr fun _ _ => rfl)
  noNaN := List.forall_mem_map.mpr fun _ _ => nofun
  distinct := List.pairwise_map.mpr
    (nodup.imp fun different same => different ((compareCodePoints_eq_zero _ _).mp same))

end

end VgiWorker.Codec
