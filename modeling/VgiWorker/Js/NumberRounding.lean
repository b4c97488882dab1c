import VgiWorker.Js.NumberArithmetic
import VgiWorker.Js.Number

/-!
# Rounding keeps the side of a bound

A value on one side of a number of the format is not rounded past it.
-/

set_option autoImplicit false

namespace VgiWorker.Js

private theorem fixed_grid (bound : ℚ) (fixed : roundSignificand bound = bound) :
    ∃ digits : Int, bound = digits * pow2 (unitExponent bound) :=
  ⟨_, fixed.symm.trans rfl⟩

private theorem floorLog2_mono (small large : ℚ) (nonzero : small ≠ 0)
    (ordered : |small| ≤ |large|) : floorLog2 small ≤ floorLog2 large :=
  le_floorLog2 large _ ((pow2_floorLog2_le small nonzero).trans ordered)

/-- A value of a higher binade is rounded to no less than the power of two it has reached. -/
private theorem pow2_le_roundSignificand (value : ℚ) (positive : 0 < value)
    (normal : -1074 ≤ floorLog2 value - 52) :
    pow2 (floorLog2 value) ≤ roundSignificand value := by
  have unit : unitExponent value = floorLog2 value - 52 := max_eq_left normal
  have reached := pow2_floorLog2_le value positive.ne'
  rw [abs_of_pos positive] at reached
  have grid : pow2 (floorLog2 value) = ((2 ^ 52 : Int) : ℚ) * pow2 (unitExponent value) := by
    have power : pow2 52 = ((2 ^ 52 : Int) : ℚ) := pow2_eq_intCast 52 (by norm_num)
    rw [← power, ← pow2_add, unit]
    congr 1
    ring
  rw [grid] at reached ⊢
  exact le_roundSignificand_of_grid value _ _ le_rfl reached

theorem le_roundSignificand_of_fixed (bound value : ℚ) (fixed : roundSignificand bound = bound)
    (below : bound ≤ value) : bound ≤ roundSignificand value := by
  obtain ⟨digits, grid⟩ := fixed_grid bound fixed
  by_cases coarse : unitExponent value ≤ unitExponent bound
  · rw [grid]
    exact le_roundSignificand_of_grid value digits _ coarse (grid ▸ below)
  · have finer := lt_of_not_ge coarse
    by_cases nonpos : bound ≤ 0
    · by_cases negative : value < 0
      · -- Nearer to zero than the bound, the value lies on a grid no coarser than it.
        have smaller : |value| ≤ |bound| := by
          rw [abs_of_neg negative, abs_of_nonpos nonpos]
          exact neg_le_neg below
        have ordered := floorLog2_mono value bound negative.ne smaller
        unfold unitExponent at finer
        omega
      · have zero := le_roundSignificand_of_grid value 0 (unitExponent value) le_rfl
          (by simpa using not_lt.mp negative)
        exact nonpos.trans (by simpa using zero)
    · have positive := not_le.mp nonpos
      have larger := positive.trans_le below
      have jump : floorLog2 bound < floorLog2 value ∧ -1074 ≤ floorLog2 value - 52 := by
        unfold unitExponent at finer
        omega
      have top := lt_pow2_floorLog2 bound positive.ne'
      rw [abs_of_pos positive] at top
      exact (top.le.trans (pow2_le_pow2 _ _ (by omega))).trans
        (pow2_le_roundSignificand value larger jump.2)

theorem roundSignificand_le_of_fixed (bound value : ℚ) (fixed : roundSignificand bound = bound)
    (above : value ≤ bound) : roundSignificand value ≤ bound := by
  have mirrored := le_roundSignificand_of_fixed (-bound) (-value)
    (by rw [roundSignificand_neg, fixed]) (neg_le_neg above)
  rw [roundSignificand_neg] at mirrored
  exact neg_le_neg_iff.mp mirrored

namespace Number

private theorem rank_rational (number : Number) (value : ℚ) (rational : number.toRat? = some value) :
    rank number = toLex (1, value) := by
  cases number with
  | nan => cases rational
  | infinity negative => cases rational
  | negativeZero =>
      cases rational
      rfl
  | finite held =>
      cases rational
      rfl

private theorem ofInt_overflow (value : Int) (overflow : nearest value = none) :
    ofInt value = .infinity (decide ((value : ℚ) < 0)) := by
  have none : (ofInt value).toRat? = none := (toRat?_ofInt_eq value).trans overflow
  unfold ofInt ofRat at none ⊢
  dsimp only at none ⊢
  split at none
  · cases none
  · split at none
    · cases none
    · rename_i nonzero outside
      rw [if_neg nonzero, dif_neg outside]

private theorem nearest_none (value : ℚ) (overflow : nearest value = none) :
    pow2 1024 ≤ |roundSignificand value| := by
  unfold nearest at overflow
  split at overflow
  · cases overflow
  · rename_i large
    exact not_lt.mp large

private theorem nearest_some (value held : ℚ) (near : nearest value = some held) :
    roundSignificand value = held := by
  unfold nearest at near
  split at near
  · exact Option.some.inj near
  · cases near

private theorem holds_fixed (number : Number) (held : ℚ) (rational : number.toRat? = some held) :
    roundSignificand held = held ∧ |held| < pow2 1024 := by
  have near := nearest_toRat? number held rational
  have fixed := nearest_some held held near
  refine ⟨fixed, ?_⟩
  by_contra large
  rw [nearest, if_neg (by rwa [fixed])] at near
  cases near

/-- An integer at or above a number is rounded to one at or above it. -/
theorem rank_le_ofInt (bound : Number) (held : ℚ) (rational : bound.toRat? = some held)
    (value : Int) (below : held ≤ value) : rank bound ≤ rank (ofInt value) := by
  obtain ⟨fixed, finite⟩ := holds_fixed bound held rational
  have rounded := le_roundSignificand_of_fixed held value fixed below
  rw [rank_rational bound held rational]
  cases near : nearest (value : ℚ) with
  | some kept =>
      rw [rank_rational (ofInt value) kept ((toRat?_ofInt_eq value).trans near),
        ← nearest_some _ _ near]
      exact Prod.Lex.toLex_le_toLex.mpr (.inr ⟨rfl, rounded⟩)
  | none =>
      have large := nearest_none _ near
      have positive : ¬(value : ℚ) < 0 := by
        intro negative
        have nonpos := roundSignificand_le_of_fixed 0 value roundSignificand_zero negative.le
        rw [abs_of_nonpos nonpos] at large
        linarith [(abs_lt.mp finite).1]
      rw [ofInt_overflow value near, decide_eq_false positive]
      exact Prod.Lex.toLex_le_toLex.mpr (.inl (show (1 : Nat) < 2 by decide))

/-- An integer at or below a number is rounded to one at or below it. -/
theorem ofInt_rank_le (bound : Number) (held : ℚ) (rational : bound.toRat? = some held)
    (value : Int) (above : (value : ℚ) ≤ held) : rank (ofInt value) ≤ rank bound := by
  obtain ⟨fixed, finite⟩ := holds_fixed bound held rational
  have rounded := roundSignificand_le_of_fixed held value fixed above
  rw [rank_rational bound held rational]
  cases near : nearest (value : ℚ) with
  | some kept =>
      rw [rank_rational (ofInt value) kept ((toRat?_ofInt_eq value).trans near),
        ← nearest_some _ _ near]
      exact Prod.Lex.toLex_le_toLex.mpr (.inr ⟨rfl, rounded⟩)
  | none =>
      have large := nearest_none _ near
      have negative : (value : ℚ) < 0 := by
        by_contra nonneg
        have rises := le_roundSignificand_of_fixed 0 value roundSignificand_zero (not_lt.mp nonneg)
        rw [abs_of_nonneg rises] at large
        linarith [(abs_lt.mp finite).2]
      rw [ofInt_overflow value near, decide_eq_true negative]
      exact Prod.Lex.toLex_le_toLex.mpr (.inl (show (0 : Nat) < 1 by decide))

end Number

end VgiWorker.Js
