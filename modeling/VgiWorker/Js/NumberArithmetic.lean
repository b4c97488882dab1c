import VgiWorker.Js.NumberProperties

/-!
# Operators as rounded rational operators

Each operator on finite numbers is the rational operator, rounded to the nearest
value of the format.
-/

set_option autoImplicit false

namespace VgiWorker.Js

/-- The value of the format nearest to a rational; none where it overflows. -/
def nearest (value : ℚ) : Option ℚ :=
  if |roundSignificand value| < pow2 1024 then some (roundSignificand value) else none

private theorem roundHalfEven_neg (value : ℚ) : roundHalfEven (-value) = -roundHalfEven value := by
  have below : ((value.floor : Int) : ℚ) ≤ value := Rat.le_floor_iff.mp le_rfl
  have above : value < ((value.floor + 1 : Int) : ℚ) := Rat.floor_lt_iff.mp (by omega)
  push_cast at above
  rcases below.eq_or_lt with whole | between
  · rw [← whole, ← Int.cast_neg, roundHalfEven_intCast, roundHalfEven_intCast]
  · have floor : (-value).floor = -value.floor - 1 := by
      refine le_antisymm ?_ (Rat.le_floor_iff.mpr ?_)
      · have : (-value).floor < -value.floor := Rat.floor_lt_iff.mpr (by push_cast; linarith)
        omega
      · push_cast
        linarith
    rw [roundHalfEven, roundHalfEven, floor]
    push_cast
    -- The excess of the negated value is what the other lacks of one.
    have excess : -value - (-(value.floor : ℚ) - 1) = 1 - (value - value.floor) := by ring
    rw [excess]
    rcases lt_trichotomy (value - value.floor) (1 / 2) with less | half | more
    · simp only [if_pos less, if_neg (show ¬ 1 - (value - (value.floor : ℚ)) < 1 / 2 by linarith),
        if_pos (show 1 / 2 < 1 - (value - (value.floor : ℚ)) by linarith)]
      omega
    · have other : (1 : ℚ) - 1 / 2 = 1 / 2 := by norm_num
      simp only [half, other, lt_irrefl, if_false]
      split <;> split <;> omega
    · simp only [if_neg (not_lt.mpr more.le), if_pos more,
        if_pos (show 1 - (value - (value.floor : ℚ)) < 1 / 2 by linarith)]
      omega

theorem roundSignificand_neg (value : ℚ) : roundSignificand (-value) = -roundSignificand value := by
  have exponent : unitExponent (-value) = unitExponent value := by
    rw [unitExponent, unitExponent, floorLog2, floorLog2, Rat.num_neg_eq_neg_num, Int.natAbs_neg,
      Rat.den_neg_eq_den, abs_neg]
  rw [roundSignificand, exponent, neg_div, roundHalfEven_neg, Int.cast_neg, neg_mul,
    ← roundSignificand]

theorem nearest_neg (value : ℚ) : nearest (-value) = (nearest value).map fun held => -held := by
  rw [nearest, nearest, roundSignificand_neg, abs_neg]
  split <;> rfl

namespace Number

theorem toRat?_ofRat_eq (negative : Bool) (value : ℚ) :
    (ofRat negative value).toRat? = nearest value := by
  have representable : IsBinary64 (roundSignificand value) ↔
      |roundSignificand value| < pow2 1024 :=
    and_iff_right (roundSignificand_idem value)
  unfold ofRat nearest
  dsimp only
  split
  · rename_i zero
    rw [zero, abs_zero, if_pos (pow2_pos 1024)]
    cases negative <;> rfl
  · split
    · rename_i inside
      rw [if_pos (representable.mp inside)]
      rfl
    · rename_i outside
      rw [if_neg fun inside => outside (representable.mpr inside)]
      rfl

theorem toRat?_ofInt_eq (value : Int) : (ofInt value).toRat? = nearest value :=
  toRat?_ofRat_eq false value

/-- A number holds a value of the format. -/
theorem nearest_toRat? (number : Number) (value : ℚ) (rational : number.toRat? = some value) :
    nearest value = some value := by
  have holds : roundSignificand value = value ∧ |value| < pow2 1024 := by
    cases number with
    | nan => cases rational
    | infinity negative => cases rational
    | negativeZero =>
        cases rational
        exact ⟨roundSignificand_zero, by simpa using pow2_pos 1024⟩
    | finite held =>
        cases rational
        exact held.property
  rw [nearest, holds.1, if_pos holds.2]

theorem toRat?_neg (number : Number) : number.neg.toRat? = number.toRat?.map fun held => -held := by
  cases number with
  | nan => rfl
  | infinity negative => rfl
  | negativeZero => rfl
  | finite held =>
      have isNearest := nearest_toRat? (.finite held) held.val rfl
      rw [neg, toRat?_ofRat_eq, nearest_neg, isNearest]
      rfl

/-! ## Finite operands -/

section

variable (left right : Number) (leftValue rightValue : ℚ)
  (leftEq : left.toRat? = some leftValue) (rightEq : right.toRat? = some rightValue)

include leftEq rightEq

theorem toRat?_add_eq : (left.add right).toRat? = nearest (leftValue + rightValue) := by
  have sum := toRat?_ofRat_eq false (leftValue + rightValue)
  cases left <;> cases right <;> cases leftEq <;> cases rightEq
  · have zero : (nearest (0 + 0)) = some 0 := by
      rw [add_zero]
      exact nearest_toRat? .negativeZero 0 rfl
    rw [zero]
    rfl
  · exact sum
  · exact sum
  · exact sum

theorem toRat?_mul_eq : (left.mul right).toRat? = nearest (leftValue * rightValue) := by
  cases left <;> cases right <;> cases leftEq <;> cases rightEq <;> exact toRat?_ofRat_eq _ _

theorem toRat?_div_eq (nonzero : rightValue ≠ 0) :
    (left.div right).toRat? = nearest (leftValue / rightValue) := by
  cases left <;> cases right <;> cases leftEq <;> cases rightEq
  · exact absurd rfl nonzero
  · exact (congrArg toRat? (if_neg nonzero)).trans (toRat?_ofRat_eq _ _)
  · exact absurd rfl nonzero
  · exact (congrArg toRat? (if_neg nonzero)).trans (toRat?_ofRat_eq _ _)

theorem toRat?_rem_eq (nonzero : rightValue ≠ 0) :
    (left.rem right).toRat? =
      nearest (leftValue - rightValue * truncate (leftValue / rightValue)) := by
  cases left <;> cases right <;> cases leftEq <;> cases rightEq
  · exact absurd rfl nonzero
  · exact (congrArg toRat? (if_neg nonzero)).trans (toRat?_ofRat_eq _ _)
  · exact absurd rfl nonzero
  · exact (congrArg toRat? (if_neg nonzero)).trans (toRat?_ofRat_eq _ _)

end

theorem toRat?_sub_eq (left right : Number) (leftValue rightValue : ℚ)
    (leftEq : left.toRat? = some leftValue) (rightEq : right.toRat? = some rightValue) :
    (left.sub right).toRat? = nearest (leftValue - rightValue) := by
  have negated : right.neg.toRat? = some (-rightValue) := by
    rw [toRat?_neg, rightEq]
    rfl
  rw [sub, toRat?_add_eq left right.neg leftValue (-rightValue) leftEq negated, sub_eq_add_neg]

/-! ## Infinite operands -/

private theorem toRat?_none (number : Number) (none : number.toRat? = none) :
    number = .nan ∨ ∃ negative, number = .infinity negative := by
  cases number with
  | nan => exact .inl rfl
  | infinity negative => exact .inr ⟨negative, rfl⟩
  | negativeZero => cases none
  | finite held => cases none

theorem toRat?_add_none (left right : Number) (none : left.toRat? = none ∨ right.toRat? = none) :
    (left.add right).toRat? = .none := by
  rcases none with none | none
  · rcases toRat?_none left none with rfl | ⟨negative, rfl⟩
    · rfl
    · cases right with
      | infinity other => cases negative <;> cases other <;> rfl
      | nan | negativeZero | finite => rfl
  · rcases toRat?_none right none with rfl | ⟨negative, rfl⟩
    · cases left <;> rfl
    · cases left with
      | infinity other => cases negative <;> cases other <;> rfl
      | nan | negativeZero | finite => rfl

theorem toRat?_sub_none (left right : Number) (none : left.toRat? = none ∨ right.toRat? = none) :
    (left.sub right).toRat? = .none := by
  refine toRat?_add_none left right.neg (none.imp_right fun absent => ?_)
  rw [toRat?_neg, absent]
  rfl

private theorem mul_infinity (negative : Bool) (other : Number) :
    ((infinity negative).mul other).toRat? = none ∧ (other.mul (.infinity negative)).toRat? = none := by
  have either (zero : Prop) [Decidable zero] (sign : Bool) :
      (if zero then nan else infinity sign).toRat? = none := by
    split <;> rfl
  cases other with
  | nan => exact ⟨rfl, rfl⟩
  | infinity sign => cases negative <;> cases sign <;> exact ⟨rfl, rfl⟩
  | negativeZero => cases negative <;> exact ⟨rfl, rfl⟩
  | finite held => exact ⟨either _ _, either _ _⟩

theorem toRat?_mul_none (left right : Number) (none : left.toRat? = none ∨ right.toRat? = none) :
    (left.mul right).toRat? = .none := by
  rcases none with none | none
  · rcases toRat?_none left none with rfl | ⟨negative, rfl⟩
    · rfl
    · exact (mul_infinity negative right).1
  · rcases toRat?_none right none with rfl | ⟨negative, rfl⟩
    · cases left <;> rfl
    · exact (mul_infinity negative left).2

theorem toRat?_div_left_none (left right : Number) (none : left.toRat? = none) :
    (left.div right).toRat? = .none := by
  rcases toRat?_none left none with rfl | ⟨negative, rfl⟩
  · rfl
  · cases right <;> rfl

theorem toRat?_rem_left_none (left right : Number) (none : left.toRat? = none) :
    (left.rem right).toRat? = .none := by
  rcases toRat?_none left none with rfl | ⟨negative, rfl⟩
  · rfl
  · cases right <;> rfl

theorem toRat?_div_infinity (left : Number) (value : ℚ) (rational : left.toRat? = some value)
    (negative : Bool) : (left.div (.infinity negative)).toRat? = some 0 := by
  cases left with
  | nan => cases rational
  | infinity other => cases rational
  | negativeZero => cases negative <;> rfl
  | finite held =>
      have either (sign : Bool) : (if sign then negativeZero else zero).toRat? = some 0 := by
        cases sign <;> rfl
      exact either _

theorem toRat?_rem_infinity (left : Number) (value : ℚ) (rational : left.toRat? = some value)
    (negative : Bool) : (left.rem (.infinity negative)).toRat? = some value := by
  cases left with
  | nan => cases rational
  | infinity other => cases rational
  | negativeZero => exact rational
  | finite held => exact rational

/-! ## Integers -/

theorem ofInt_ne_nan (value : Int) : ofInt value ≠ .nan := by
  unfold ofInt ofRat
  dsimp only
  split
  · nofun
  · split <;> nofun

/-- The number of an integer is zero for zero only. -/
theorem nearest_eq_zero (value : Int) (zero : nearest value = some 0) : value = 0 := by
  rw [nearest] at zero
  split at zero
  · have rounded := Option.some.inj zero
    rcases lt_trichotomy value 0 with less | same | more
    · have bound := roundSignificand_le value (-1) (by norm_num) (by exact_mod_cast (by omega))
      rw [rounded] at bound
      norm_num at bound
    · exact same
    · have bound := le_roundSignificand value 1 (by norm_num) (by exact_mod_cast more)
      rw [rounded] at bound
      norm_num at bound
  · cases zero

theorem nearest_zero : nearest ((0 : Int) : ℚ) = some 0 := by
  rw [Int.cast_zero]
  exact nearest_toRat? .negativeZero 0 rfl

theorem nearest_of_toInt? (number : Number) (value : Int) (integral : number.toInt? = some value) :
    nearest value = some (value : ℚ) :=
  nearest_toRat? number value ((toInt?_eq_some number value).mp integral)

/-- A nonzero integer that the format has is held by one number. -/
theorem eq_ofInt (number : Number) (value : Int) (integral : number.toInt? = some value)
    (nonzero : value ≠ 0) : number = ofInt value := by
  have rational := (toInt?_eq_some number value).mp integral
  have other := toRat?_ofInt_toInt? number value integral
  cases number with
  | nan => cases rational
  | infinity negative => cases rational
  | negativeZero =>
      have same := Option.some.inj rational
      exact absurd (by exact_mod_cast same.symm) nonzero
  | finite held =>
      cases isOfInt : ofInt value with
      | nan => rw [isOfInt] at other; cases other
      | infinity negative => rw [isOfInt] at other; cases other
      | negativeZero =>
          rw [isOfInt] at other
          have same := Option.some.inj other
          exact absurd (by exact_mod_cast same.symm) nonzero
      | finite found =>
          rw [isOfInt] at other
          rw [Subtype.ext ((Option.some.inj rational).trans (Option.some.inj other).symm)]

end Number

end VgiWorker.Js
