import Mathlib.Algebra.Order.Field.Power
import VgiWorker.Js.Number

/-!
# Rounding to binary64

Rounding fixes the values of the format and keeps every comparison with a point
of a coarser grid, so with every integer below `2 ^ 53`.
-/

set_option autoImplicit false

namespace VgiWorker.Js

/-! ## Powers of two -/

theorem pow2_eq (exponent : Int) : pow2 exponent = (2 : ℚ) ^ exponent := by
  cases exponent with
  | ofNat power => simp [pow2]
  | negSucc power =>
      rw [pow2, zpow_negSucc, Rat.mkRat_eq_div]
      simp

theorem pow2_pos (exponent : Int) : 0 < pow2 exponent := by
  rw [pow2_eq]
  positivity

theorem pow2_le_pow2 (low high : Int) (ordered : low ≤ high) : pow2 low ≤ pow2 high := by
  rw [pow2_eq, pow2_eq]
  exact zpow_le_zpow_right₀ (by norm_num) ordered

theorem pow2_add (left right : Int) : pow2 (left + right) = pow2 left * pow2 right := by
  rw [pow2_eq, pow2_eq, pow2_eq, zpow_add₀ (by norm_num)]

theorem lt_of_pow2_lt (low high : Int) (less : pow2 low < pow2 high) : low < high := by
  by_contra reversed
  exact absurd less (not_lt.mpr (pow2_le_pow2 high low (not_lt.mp reversed)))

/-- The power of two of a non-negative exponent is an integer. -/
theorem pow2_eq_intCast (exponent : Int) (nonneg : 0 ≤ exponent) :
    pow2 exponent = ((2 ^ exponent.toNat : Int) : ℚ) := by
  cases exponent with
  | ofNat power => simp [pow2]
  | negSucc power => exact absurd nonneg (by simp)

/-! ## The exponent of a value -/

private theorem log2_bounds (value : Nat) (positive : value ≠ 0) :
    pow2 value.log2 ≤ (value : ℚ) ∧ (value : ℚ) < pow2 (value.log2 + 1) := by
  constructor
  · have bound := Nat.log2_self_le positive
    have cast : ((2 ^ value.log2 : Nat) : ℚ) ≤ value := by exact_mod_cast bound
    simpa [pow2_eq] using cast
  · have bound := Nat.lt_log2_self (n := value)
    have cast : (value : ℚ) < ((2 ^ (value.log2 + 1) : Nat) : ℚ) := by exact_mod_cast bound
    rw [pow2_eq]
    exact_mod_cast cast

private theorem abs_eq_div (value : ℚ) : |value| = (value.num.natAbs : ℚ) / value.den := by
  conv_lhs => rw [← Rat.num_div_den value]
  rw [abs_div, Nat.abs_cast, ← Int.cast_abs, Int.abs_eq_natAbs, Int.cast_natCast]

/-- The estimate behind `floorLog2` is off by at most one. -/
private theorem estimate_bounds (value : ℚ) (nonzero : value ≠ 0) :
    pow2 ((value.num.natAbs.log2 : Int) - value.den.log2 - 1) ≤ |value| ∧
      |value| < pow2 ((value.num.natAbs.log2 : Int) - value.den.log2 + 1) := by
  have numNonzero : value.num.natAbs ≠ 0 := by simpa using nonzero
  obtain ⟨numLow, numHigh⟩ := log2_bounds _ numNonzero
  obtain ⟨denLow, denHigh⟩ := log2_bounds _ value.den_nz
  have denPos : (0 : ℚ) < value.den := by exact_mod_cast value.den_pos
  rw [abs_eq_div, le_div_iff₀ denPos, div_lt_iff₀ denPos]
  constructor
  · calc pow2 ((value.num.natAbs.log2 : Int) - value.den.log2 - 1) * value.den
        ≤ pow2 ((value.num.natAbs.log2 : Int) - value.den.log2 - 1) * pow2 (value.den.log2 + 1) :=
          mul_le_mul_of_nonneg_left denHigh.le (pow2_pos _).le
      _ = pow2 value.num.natAbs.log2 := by
          rw [← pow2_add]
          congr 1
          omega
      _ ≤ value.num.natAbs := numLow
  · calc (value.num.natAbs : ℚ) < pow2 (value.num.natAbs.log2 + 1) := numHigh
      _ = pow2 ((value.num.natAbs.log2 : Int) - value.den.log2 + 1) * pow2 value.den.log2 := by
          rw [← pow2_add]
          congr 1
          omega
      _ ≤ pow2 ((value.num.natAbs.log2 : Int) - value.den.log2 + 1) * value.den :=
          mul_le_mul_of_nonneg_left denLow (pow2_pos _).le

theorem pow2_floorLog2_le (value : ℚ) (nonzero : value ≠ 0) :
    pow2 (floorLog2 value) ≤ |value| := by
  unfold floorLog2
  dsimp only
  split
  · assumption
  · exact (estimate_bounds value nonzero).1

theorem lt_pow2_floorLog2 (value : ℚ) (nonzero : value ≠ 0) :
    |value| < pow2 (floorLog2 value + 1) := by
  unfold floorLog2
  dsimp only
  split
  · exact (estimate_bounds value nonzero).2
  · rename_i above
    simpa using above

theorem floorLog2_lt (value : ℚ) (exponent : Int) (nonzero : value ≠ 0)
    (bound : |value| < pow2 exponent) : floorLog2 value < exponent :=
  lt_of_pow2_lt _ _ ((pow2_floorLog2_le value nonzero).trans_lt bound)

theorem le_floorLog2 (value : ℚ) (exponent : Int) (bound : pow2 exponent ≤ |value|) :
    exponent ≤ floorLog2 value := by
  have nonzero : value ≠ 0 := by
    rintro rfl
    rw [abs_zero] at bound
    exact absurd (pow2_pos exponent) (not_lt.mpr bound)
  have above := lt_of_pow2_lt _ _ (bound.trans_lt (lt_pow2_floorLog2 value nonzero))
  omega

/-! ## Rounding to an integer -/

theorem roundHalfEven_intCast (value : Int) : roundHalfEven (value : ℚ) = value := by
  simp [roundHalfEven, Rat.floor_intCast]

theorem le_roundHalfEven (value : ℚ) (bound : Int) (above : (bound : ℚ) ≤ value) :
    bound ≤ roundHalfEven value := by
  have floor : bound ≤ value.floor := Rat.le_floor_iff.mpr above
  unfold roundHalfEven
  dsimp only
  split
  · exact floor
  · split
    · omega
    · split <;> omega

theorem roundHalfEven_le (value : ℚ) (bound : Int) (below : value ≤ (bound : ℚ)) :
    roundHalfEven value ≤ bound := by
  rcases below.eq_or_lt with same | less
  · rw [same, roundHalfEven_intCast]
  · have floor : value.floor < bound := by
      have floorLe : ((value.floor : Int) : ℚ) ≤ value := Rat.le_floor_iff.mp le_rfl
      exact_mod_cast floorLe.trans_lt less
    unfold roundHalfEven
    dsimp only
    split
    · omega
    · split
      · omega
      · split <;> omega

/-! ## Rounding to the format -/

/-- A point of the grid `2 ^ exponent` is one of every finer grid. -/
private theorem grid_refine (digits exponent finer : Int) (ordered : finer ≤ exponent) :
    (digits : ℚ) * pow2 exponent / pow2 finer =
      ((digits * 2 ^ (exponent - finer).toNat : Int) : ℚ) := by
  have split : pow2 exponent = pow2 (exponent - finer) * pow2 finer := by
    rw [← pow2_add, sub_add_cancel]
  rw [split, ← mul_assoc, mul_div_assoc, div_self (pow2_pos finer).ne', mul_one,
    pow2_eq_intCast _ (by omega)]
  push_cast
  rfl

theorem roundSignificand_zero : roundSignificand 0 = 0 := by
  have digits : roundHalfEven 0 = 0 := by simpa using roundHalfEven_intCast 0
  rw [roundSignificand, zero_div, digits, Int.cast_zero, zero_mul]

/-- Rounding keeps a lower bound on a grid no finer than the one it rounds to. -/
theorem le_roundSignificand_of_grid (value : ℚ) (digits exponent : Int)
    (coarse : unitExponent value ≤ exponent) (above : digits * pow2 exponent ≤ value) :
    digits * pow2 exponent ≤ roundSignificand value := by
  have unitPos := pow2_pos (unitExponent value)
  have scaled := (div_le_div_iff_of_pos_right unitPos).mpr above
  rw [grid_refine digits exponent _ coarse] at scaled
  have rounded := le_roundHalfEven _ _ scaled
  have cast : ((digits * 2 ^ (exponent - unitExponent value).toNat : Int) : ℚ) ≤
      roundHalfEven (value / pow2 (unitExponent value)) := by exact_mod_cast rounded
  rw [← grid_refine digits exponent _ coarse] at cast
  rw [roundSignificand]
  exact (div_le_iff₀ unitPos).mp cast

theorem roundSignificand_le_of_grid (value : ℚ) (digits exponent : Int)
    (coarse : unitExponent value ≤ exponent) (below : value ≤ digits * pow2 exponent) :
    roundSignificand value ≤ digits * pow2 exponent := by
  have unitPos := pow2_pos (unitExponent value)
  have scaled := (div_le_div_iff_of_pos_right unitPos).mpr below
  rw [grid_refine digits exponent _ coarse] at scaled
  have rounded := roundHalfEven_le _ _ scaled
  have cast : (roundHalfEven (value / pow2 (unitExponent value)) : ℚ) ≤
      ((digits * 2 ^ (exponent - unitExponent value).toNat : Int) : ℚ) := by exact_mod_cast rounded
  rw [← grid_refine digits exponent _ coarse] at cast
  rw [roundSignificand]
  exact (le_div_iff₀ unitPos).mp cast

/-- Fewer than `2 ^ 53` multiples of a power of two are exact. -/
private theorem roundSignificand_of_lt (digits exponent : Int) (normal : -1074 ≤ exponent)
    (small : |digits| < 2 ^ 53) :
    roundSignificand (digits * pow2 exponent) = digits * pow2 exponent := by
  by_cases zero : digits = 0
  · simp [zero, roundSignificand_zero]
  · have nonzero : (digits : ℚ) * pow2 exponent ≠ 0 :=
      mul_ne_zero (by exact_mod_cast zero) (pow2_pos exponent).ne'
    have bound : |(digits : ℚ) * pow2 exponent| < pow2 (exponent + 53) := by
      rw [abs_mul, abs_of_pos (pow2_pos exponent), add_comm, pow2_add]
      refine mul_lt_mul_of_pos_right ?_ (pow2_pos exponent)
      have cast : ((|digits| : Int) : ℚ) < ((2 ^ 53 : Int) : ℚ) := by exact_mod_cast small
      simpa [pow2] using cast
    have exponentBound := floorLog2_lt _ _ nonzero bound
    have coarse : unitExponent ((digits : ℚ) * pow2 exponent) ≤ exponent := by
      unfold unitExponent
      omega
    exact le_antisymm (roundSignificand_le_of_grid _ digits exponent coarse le_rfl)
      (le_roundSignificand_of_grid _ digits exponent coarse le_rfl)

theorem roundSignificand_of_grid (digits exponent : Int) (normal : -1074 ≤ exponent)
    (small : |digits| ≤ 2 ^ 53) :
    roundSignificand (digits * pow2 exponent) = digits * pow2 exponent := by
  rcases small.eq_or_lt with full | less
  · -- The 54th bit is the only one set: half the digits on a grid twice as coarse.
    obtain ⟨half, halfEq⟩ : (2 : Int) ∣ digits :=
      (dvd_abs 2 digits).mp (full ▸ ⟨2 ^ 52, by norm_num⟩)
    have halfSmall : |half| < 2 ^ 53 := by
      have absEq : |digits| = 2 * |half| := by rw [halfEq, abs_mul]; rfl
      omega
    have coarser : (digits : ℚ) * pow2 exponent = half * pow2 (exponent + 1) := by
      rw [pow2_add, halfEq]
      have two : pow2 1 = 2 := by norm_num [pow2]
      rw [two]
      push_cast
      ring
    rw [coarser, roundSignificand_of_lt half (exponent + 1) (by omega) halfSmall]
  · exact roundSignificand_of_lt digits exponent normal less

/-- Rounding does not leave the next power of two. -/
theorem abs_roundSignificand_le (value : ℚ) (exponent : Int) (normal : -1074 ≤ exponent)
    (bound : |value| ≤ pow2 exponent) : |roundSignificand value| ≤ pow2 exponent := by
  by_cases zero : value = 0
  · rw [zero, roundSignificand_zero, abs_zero]
    exact (pow2_pos exponent).le
  · have exponentBound : floorLog2 value ≤ exponent := by
      have power := (pow2_floorLog2_le value zero).trans bound
      by_contra reversed
      have double : pow2 (exponent + 1) ≤ pow2 (floorLog2 value) :=
        pow2_le_pow2 _ _ (by omega)
      have two : pow2 1 = 2 := by norm_num [pow2]
      rw [pow2_add, two] at double
      linarith [pow2_pos exponent]
    have coarse : unitExponent value ≤ exponent := by
      unfold unitExponent
      omega
    have upper := roundSignificand_le_of_grid value 1 exponent coarse
      (by simpa using (abs_le.mp bound).2)
    have lower := le_roundSignificand_of_grid value (-1) exponent coarse
      (by simpa using (abs_le.mp bound).1)
    rw [abs_le]
    constructor
    · simpa using lower
    · simpa using upper

theorem roundSignificand_idem (value : ℚ) :
    roundSignificand (roundSignificand value) = roundSignificand value := by
  by_cases zero : value = 0
  · rw [zero, roundSignificand_zero, roundSignificand_zero]
  · have normal : -1074 ≤ unitExponent value := le_max_right _ _
    apply roundSignificand_of_grid _ _ normal
    -- The digits are at most those of the next power of two.
    have inside : |value| ≤ pow2 (unitExponent value + 53) := by
      refine (lt_pow2_floorLog2 value zero).le.trans (pow2_le_pow2 _ _ ?_)
      have : floorLog2 value - 52 ≤ unitExponent value := le_max_left _ _
      omega
    have rounded := abs_roundSignificand_le value _ (by omega) inside
    rw [roundSignificand, abs_mul, abs_of_pos (pow2_pos _), add_comm, pow2_add] at rounded
    have digits := le_of_mul_le_mul_right rounded (pow2_pos _)
    rw [← Int.cast_abs, pow2_eq_intCast 53 (by norm_num)] at digits
    exact_mod_cast digits

/-! ## Integers -/

private theorem unitExponent_nonpos (value : ℚ) (small : |value| < pow2 53) :
    unitExponent value ≤ 0 := by
  by_cases zero : value = 0
  · rw [zero]
    decide +kernel
  · have bound := floorLog2_lt value 53 zero small
    unfold unitExponent
    omega

private theorem pow2_53_le_roundSignificand (value : ℚ) (large : pow2 53 ≤ value) :
    pow2 53 ≤ roundSignificand value := by
  have nonneg : 0 ≤ value := (pow2_pos 53).le.trans large
  have absEq := abs_of_nonneg nonneg
  have exponentBound := le_floorLog2 value 53 (absEq.symm ▸ large)
  have nonzero : value ≠ 0 := ((pow2_pos 53).trans_le large).ne'
  have power := pow2_floorLog2_le value nonzero
  rw [absEq] at power
  have coarse : unitExponent value ≤ floorLog2 value := by
    unfold unitExponent
    omega
  have kept := le_roundSignificand_of_grid value 1 _ coarse (by simpa using power)
  rw [Int.cast_one, one_mul] at kept
  exact (pow2_le_pow2 _ _ exponentBound).trans kept

private theorem roundSignificand_le_neg_pow2_53 (value : ℚ) (large : value ≤ -pow2 53) :
    roundSignificand value ≤ -pow2 53 := by
  have negative : value < 0 := large.trans_lt (neg_lt_zero.mpr (pow2_pos 53))
  have absEq := abs_of_neg negative
  have exponentBound := le_floorLog2 value 53 (by rw [absEq]; linarith)
  have power := pow2_floorLog2_le value negative.ne
  rw [absEq] at power
  have coarse : unitExponent value ≤ floorLog2 value := by
    unfold unitExponent
    omega
  have kept := roundSignificand_le_of_grid value (-1) _ coarse (by push_cast; linarith)
  push_cast at kept
  linarith [pow2_le_pow2 _ _ exponentBound]

private theorem pow2_53_eq : pow2 53 = ((2 ^ 53 : Int) : ℚ) := pow2_eq_intCast 53 (by norm_num)

/-- Rounding keeps a lower bound that is an integer below `2 ^ 53`. -/
theorem le_roundSignificand (value : ℚ) (bound : Int) (small : |bound| < 2 ^ 53)
    (above : (bound : ℚ) ≤ value) : (bound : ℚ) ≤ roundSignificand value := by
  have boundLt : (bound : ℚ) < pow2 53 := by
    rw [pow2_53_eq]
    exact_mod_cast (abs_lt.mp small).2
  rcases le_or_gt (pow2 53) value with large | notLarge
  · exact boundLt.le.trans (pow2_53_le_roundSignificand value large)
  · have boundGt : -pow2 53 < (bound : ℚ) := by
      rw [pow2_53_eq]
      exact_mod_cast (abs_lt.mp small).1
    have coarse := unitExponent_nonpos value (abs_lt.mpr ⟨boundGt.trans_le above, notLarge⟩)
    have kept := le_roundSignificand_of_grid value bound 0 coarse (by simpa [pow2] using above)
    simpa [pow2] using kept

theorem roundSignificand_le (value : ℚ) (bound : Int) (small : |bound| < 2 ^ 53)
    (below : value ≤ (bound : ℚ)) : roundSignificand value ≤ (bound : ℚ) := by
  have boundGt : -pow2 53 < (bound : ℚ) := by
    rw [pow2_53_eq]
    exact_mod_cast (abs_lt.mp small).1
  rcases le_or_gt value (-pow2 53) with large | notLarge
  · exact (roundSignificand_le_neg_pow2_53 value large).trans boundGt.le
  · have boundLt : (bound : ℚ) < pow2 53 := by
      rw [pow2_53_eq]
      exact_mod_cast (abs_lt.mp small).2
    have coarse := unitExponent_nonpos value (abs_lt.mpr ⟨notLarge, below.trans_lt boundLt⟩)
    have kept := roundSignificand_le_of_grid value bound 0 coarse (by simpa [pow2] using below)
    simpa [pow2] using kept

theorem roundSignificand_intCast (value : Int) (small : |value| ≤ 2 ^ 53) :
    roundSignificand (value : ℚ) = value := by
  have exact := roundSignificand_of_grid value 0 (by norm_num) small
  simpa [pow2] using exact

/-! ## Operators on finite numbers -/

namespace Number

/-- A rounding that does not overflow. -/
theorem toRat?_ofRat (negative : Bool) (value : ℚ) (bounded : |value| ≤ pow2 1023) :
    (ofRat negative value).toRat? = some (roundSignificand value) := by
  have representable : IsBinary64 (roundSignificand value) := by
    refine ⟨roundSignificand_idem value, ?_⟩
    have inside := abs_roundSignificand_le value 1023 (by norm_num) bounded
    refine inside.trans_lt ?_
    rw [pow2_eq, pow2_eq]
    exact zpow_lt_zpow_right₀ (by norm_num) (by norm_num)
  unfold ofRat
  dsimp only
  split
  · rename_i rounded
    rw [rounded]
    cases negative <;> rfl
  · rfl

private theorem intCast_le_pow2 (value : Int) (bounded : |value| ≤ 2 ^ 64) :
    |(value : ℚ)| ≤ pow2 64 := by
  rw [pow2_eq_intCast 64 (by norm_num), ← Int.cast_abs]
  exact_mod_cast bounded

theorem toRat?_ofInt (value : Int) (bounded : |value| ≤ 2 ^ 64) :
    (ofInt value).toRat? = some (roundSignificand value) :=
  toRat?_ofRat false value
    ((intCast_le_pow2 value bounded).trans (pow2_le_pow2 64 1023 (by norm_num)))

theorem toRat?_ofInt_exact (value : Int) (small : |value| ≤ 2 ^ 53) :
    (ofInt value).toRat? = some (value : ℚ) := by
  rw [toRat?_ofInt value (small.trans (by norm_num)), roundSignificand_intCast value small]

theorem toInt?_eq_some (number : Number) (value : Int) :
    number.toInt? = some value ↔ number.toRat? = some (value : ℚ) := by
  unfold toInt?
  cases rational : number.toRat? with
  | none => simp
  | some held =>
      dsimp only
      constructor
      · intro integral
        split at integral
        · rename_i whole
          cases integral
          rw [Rat.coe_int_num_of_den_eq_one whole]
        · cases integral
      · intro same
        cases same
        simp

/-- An integral number is its own integer's number, up to the sign of zero. -/
theorem toRat?_ofInt_toInt? (number : Number) (value : Int)
    (integral : number.toInt? = some value) : (ofInt value).toRat? = some (value : ℚ) := by
  have rational := (toInt?_eq_some number value).mp integral
  cases number with
  | nan => cases rational
  | infinity negative => cases rational
  | negativeZero =>
      have zero : value = 0 := by
        have same := Option.some.inj rational
        exact_mod_cast same.symm
      subst zero
      exact toRat?_ofInt_exact 0 (by norm_num)
  | finite held =>
      obtain ⟨held, fixed, bounded⟩ := held
      obtain rfl : held = (value : ℚ) := Option.some.inj rational
      unfold ofInt ofRat
      dsimp only
      rw [fixed]
      split
      · rename_i zero
        rw [zero]
        rfl
      · rw [dif_pos ⟨fixed, bounded⟩]
        rfl

theorem less_eq (left right : Number) (leftValue rightValue : ℚ)
    (leftEq : left.toRat? = some leftValue) (rightEq : right.toRat? = some rightValue) :
    left.less right = decide (leftValue < rightValue) := by
  cases left <;> cases right <;> cases leftEq <;> cases rightEq <;> rfl

theorem strictEq_eq (left right : Number) (leftValue rightValue : ℚ)
    (leftEq : left.toRat? = some leftValue) (rightEq : right.toRat? = some rightValue) :
    left.strictEq right = decide (leftValue = rightValue) := by
  cases left <;> cases right <;> cases leftEq <;> cases rightEq <;> rfl

theorem lessEq_eq (left right : Number) (leftValue rightValue : ℚ)
    (leftEq : left.toRat? = some leftValue) (rightEq : right.toRat? = some rightValue) :
    left.lessEq right = decide (leftValue ≤ rightValue) := by
  rw [lessEq, less_eq left right _ _ leftEq rightEq, strictEq_eq left right _ _ leftEq rightEq,
    ← Bool.decide_or]
  exact decide_eq_decide.mpr le_iff_lt_or_eq.symm

theorem toRat?_add (left right : Number) (leftValue rightValue : ℚ)
    (leftEq : left.toRat? = some leftValue) (rightEq : right.toRat? = some rightValue)
    (bounded : |leftValue + rightValue| ≤ pow2 1023) :
    (add left right).toRat? = some (roundSignificand (leftValue + rightValue)) := by
  have sum := toRat?_ofRat false _ bounded
  cases left <;> cases right <;> cases leftEq <;> cases rightEq
  · rw [add_zero, roundSignificand_zero]
    rfl
  · exact sum
  · exact sum
  · exact sum

/-! ### Truncation -/

theorem abs_truncate_le (value : ℚ) : |((truncate value : Int) : ℚ)| ≤ |value| := by
  have toZero : ∀ magnitude : ℚ, 0 ≤ magnitude →
      0 ≤ ((magnitude.floor : Int) : ℚ) ∧ ((magnitude.floor : Int) : ℚ) ≤ magnitude := by
    intro magnitude nonneg
    refine ⟨?_, Rat.le_floor_iff.mp le_rfl⟩
    have floor : (0 : Int) ≤ magnitude.floor := Rat.le_floor_iff.mpr (by simpa using nonneg)
    exact_mod_cast floor
  unfold truncate
  split
  · rename_i negative
    obtain ⟨nonneg, below⟩ := toZero (-value) (by linarith)
    rw [abs_of_neg negative, Int.cast_neg, abs_neg, abs_of_nonneg nonneg]
    exact below
  · rename_i nonneg
    obtain ⟨floorNonneg, below⟩ := toZero value (not_lt.mp nonneg)
    rw [abs_of_nonneg (not_lt.mp nonneg), abs_of_nonneg floorNonneg]
    exact below

theorem toRat?_trunc (number : Number) (value : ℚ) (rational : number.toRat? = some value)
    (small : |value| ≤ 2 ^ 53) : number.trunc.toRat? = some ((truncate value : Int) : ℚ) := by
  cases number with
  | nan => cases rational
  | infinity negative => cases rational
  | negativeZero =>
      cases rational
      rfl
  | finite held =>
      obtain rfl := Option.some.inj rational
      have bound : |truncate held.val| ≤ 2 ^ 53 := by
        have cast := (abs_truncate_le held.val).trans small
        rw [← Int.cast_abs] at cast
        exact_mod_cast cast
      rw [trunc, toRat?_ofRat _ _ ((intCast_le_pow2 _ (bound.trans (by norm_num))).trans
        (pow2_le_pow2 64 1023 (by norm_num))), roundSignificand_intCast _ bound]

/-! ## Integer texts -/

theorem decimal_head (value : Nat) : ∃ first rest, decimal value = first :: rest := by
  cases written : decimal value with
  | nil =>
      have read := natOfDigits_decimal value
      rw [written] at read
      have zero : value = 0 := read.symm
      rw [zero] at written
      exact absurd written (by decide)
  | cons first rest => exact ⟨first, rest, rfl⟩

private theorem notSpace_of_range (unit : CodeUnit) (low : 0x21 ≤ unit.toNat)
    (high : unit.toNat < 0x80) : isWhiteSpace unit = false := by
  simp only [isWhiteSpace, decide_eq_false_iff_not]
  omega

/-- A text without white space is trimmed already. -/
private theorem trimText_eq (string : Text) (solid : ∀ unit ∈ string, isWhiteSpace unit = false) :
    trimText string = string := by
  have kept : ∀ other : Text, (∀ unit ∈ other, isWhiteSpace unit = false) →
      other.dropWhile isWhiteSpace = other := by
    intro other otherSolid
    cases other with
    | nil => rfl
    | cons first rest =>
        rw [List.dropWhile_cons, otherSolid first List.mem_cons_self]
        rfl
  unfold trimText
  rw [kept string solid, kept string.reverse fun unit member => solid unit (List.mem_reverse.mp member),
    List.reverse_reverse]

private theorem nonDecimal?_decimal (value : Nat) : nonDecimal? (decimal value) = none := by
  unfold nonDecimal?
  split
  · next marker digits written =>
    have range := mem_decimal value marker (by rw [written]; simp)
    have other : ∀ code : Nat, 57 < code → code < 65536 → marker ≠ UInt16.ofNat code := by
      intro code high bound same
      rw [same, UInt16.toNat_ofNat_of_lt' bound] at range
      omega
    have letters : ¬(marker = 120 ∨ marker = 88) ∧ ¬(marker = 111 ∨ marker = 79) ∧
        ¬(marker = 98 ∨ marker = 66) := by
      refine ⟨not_or.mpr ⟨?_, ?_⟩, not_or.mpr ⟨?_, ?_⟩, not_or.mpr ⟨?_, ?_⟩⟩
      · exact other 120 (by decide) (by decide)
      · exact other 88 (by decide) (by decide)
      · exact other 111 (by decide) (by decide)
      · exact other 79 (by decide) (by decide)
      · exact other 98 (by decide) (by decide)
      · exact other 66 (by decide) (by decide)
    rw [if_neg letters.1, if_neg letters.2.1, if_neg letters.2.2]
  · rfl

private theorem takeSign_decimal (value : Nat) : takeSign (decimal value) = (false, decimal value) := by
  obtain ⟨first, rest, written⟩ := decimal_head value
  have range := mem_decimal value first (by rw [written]; exact List.mem_cons_self)
  unfold takeSign
  split
  · next others same =>
    rw [same] at written
    rw [← (List.cons.inj written).1] at range
    exact absurd range.1 (by decide)
  · next others same =>
    rw [same] at written
    rw [← (List.cons.inj written).1] at range
    exact absurd range.1 (by decide)
  · rfl

private theorem all_isDigit_decimal (value : Nat) : (decimal value).all isDigit = true := by
  rw [List.all_eq_true]
  intro unit member
  have range := mem_decimal value unit member
  rw [isDigit, digitValue?, if_pos range]
  rfl

private theorem bigIntOfText?_signed (sign : Text) (negative : Bool) (value : Nat)
    (solid : ∀ unit ∈ sign, isWhiteSpace unit = false)
    (plain : nonDecimal? (sign ++ decimal value) = none)
    (taken : takeSign (sign ++ decimal value) = (negative, decimal value)) :
    bigIntOfText? (sign ++ decimal value) =
      some (if negative then -(value : Int) else value) := by
  obtain ⟨first, rest, written⟩ := decimal_head value
  have trimmed : trimText (sign ++ decimal value) = sign ++ decimal value := by
    refine trimText_eq _ fun unit member => ?_
    rcases List.mem_append.mp member with inSign | inDigits
    · exact solid unit inSign
    · have range := mem_decimal value unit inDigits
      exact notSpace_of_range unit (by omega) (by omega)
  have nonempty : sign ++ decimal value ≠ [] := by
    rw [written]
    simp
  have digits : decimal value ≠ [] := by
    rw [written]
    exact List.cons_ne_nil _ _
  unfold bigIntOfText?
  rw [trimmed]
  simp only [plain, taken]
  rw [if_neg nonempty, if_neg digits, if_pos (all_isDigit_decimal value), natOfDigits_decimal]

/-- `BigInt` reads what `toString` writes. -/
theorem bigIntOfText?_decimalInt (value : Int) : bigIntOfText? (decimalInt value) = some value := by
  unfold decimalInt
  split
  · next negative =>
    have minus : text "-" = [45] := by decide
    have solid : ∀ unit ∈ text "-", isWhiteSpace unit = false := forall_mem_of_all _ _ (by decide)
    have read := bigIntOfText?_signed (text "-") true value.natAbs solid (by rw [minus]; rfl)
      (by rw [minus]; rfl)
    rw [read, if_pos rfl]
    exact congrArg some (by omega)
  · next nonnegative =>
    have read := bigIntOfText?_signed [] false value.natAbs (by simp) (nonDecimal?_decimal _)
      (takeSign_decimal _)
    rw [List.nil_append] at read
    rw [read, if_neg (by simp)]
    exact congrArg some (by omega)

end Number

end VgiWorker.Js
