import VgiWorker.Codec.Collections
import VgiWorker.Js.TextOrder

/-!
# Strings by code points

The comparison of map keys. A surrogate comes after every other code unit, which
makes the order of code units that of the scalar values they stand for.
-/

set_option autoImplicit false

namespace VgiWorker.Codec

open Js FirstDifference

/-- `compareCodePoints(left, right)`. -/
def compareCodePoints : Text → Text → Int
  | left :: leftRest, right :: rightRest =>
      if left = right then compareCodePoints leftRest rightRest
      else if isSurrogate left ≠ isSurrogate right then (if isSurrogate left then 1 else -1)
      else (left.toNat : Int) - right.toNat
  | left, right => (left.length : Int) - right.length

/-- The place of a code unit. -/
def unitPlace (unit : CodeUnit) : Nat :=
  if isSurrogate unit then 0x10000 + unit.toNat else unit.toNat

private theorem unit_bound (unit : CodeUnit) : unit.toNat < 0x10000 :=
  unit.toNat_lt

private theorem unitPlace_injective (left right : CodeUnit)
    (same : unitPlace left = unitPlace right) : left = right := by
  have leftBound := unit_bound left
  have rightBound := unit_bound right
  unfold unitPlace at same
  refine UInt16.toNat_inj.mp ?_
  split at same
  · split at same
    · omega
    · omega
  · split at same
    · omega
    · omega

private theorem compare_int_lt (value : Int) (negative : value < 0) : compare value 0 = .lt :=
  if_pos negative

private theorem compare_int_gt (value : Int) (positive : 0 < value) : compare value 0 = .gt := by
  rw [Std.OrientedOrd.eq_swap, show compare 0 value = .lt from if_pos positive]
  rfl

/-- Where two units differ, their places decide. -/
private theorem compare_heads (left right : CodeUnit) (different : left ≠ right) :
    compare (if isSurrogate left ≠ isSurrogate right then (if isSurrogate left then 1 else -1)
      else (left.toNat : Int) - right.toNat) 0 = compare (unitPlace left) (unitPlace right) := by
  have leftBound := unit_bound left
  have rightBound := unit_bound right
  have apart : left.toNat ≠ right.toNat := fun same => different (UInt16.toNat_inj.mp same)
  cases leftKind : isSurrogate left with
  | true =>
      cases rightKind : isSurrogate right with
      | true =>
          rw [if_neg (by simp), unitPlace, unitPlace, if_pos leftKind, if_pos rightKind]
          rcases Nat.lt_or_gt_of_ne apart with less | greater
          · rw [compare_int_lt _ (by omega), Nat.compare_eq_lt.mpr (by omega)]
          · rw [compare_int_gt _ (by omega), Nat.compare_eq_gt.mpr (by omega)]
      | false =>
          rw [if_pos (by simp), if_pos rfl, unitPlace, unitPlace, if_pos leftKind,
            if_neg (by simp [rightKind]), compare_int_gt _ (by omega),
            Nat.compare_eq_gt.mpr (by omega)]
  | false =>
      cases rightKind : isSurrogate right with
      | true =>
          rw [if_pos (by simp), if_neg (by simp), unitPlace, unitPlace, if_pos rightKind,
            if_neg (by simp [leftKind]), compare_int_lt _ (by omega),
            Nat.compare_eq_lt.mpr (by omega)]
      | false =>
          rw [if_neg (by simp), unitPlace, unitPlace, if_neg (by simp [leftKind]),
            if_neg (by simp [rightKind])]
          rcases Nat.lt_or_gt_of_ne apart with less | greater
          · rw [compare_int_lt _ (by omega), Nat.compare_eq_lt.mpr (by omega)]
          · rw [compare_int_gt _ (by omega), Nat.compare_eq_gt.mpr (by omega)]

/-- The comparison is that of the lists of places. -/
theorem compareCodePoints_places (left right : Text) :
    compare (compareCodePoints left right) 0 =
      compare (left.map unitPlace) (right.map unitPlace) := by
  induction left generalizing right with
  | nil =>
      cases right with
      | nil => rfl
      | cons other others =>
          rw [compareCodePoints]
          · exact compare_int_lt _ (by simp only [List.length_nil, List.length_cons]; omega)
          · exact nofun
  | cons head rest ih =>
      cases right with
      | nil =>
          rw [compareCodePoints]
          · exact compare_int_gt _ (by simp only [List.length_nil, List.length_cons]; omega)
          · exact nofun
      | cons other others =>
          rw [compareCodePoints, List.map_cons, List.map_cons, List.compare_cons_cons]
          by_cases same : head = other
          · subst same
            rw [if_pos rfl, ih, Std.ReflOrd.compare_self]
            rfl
          · rw [if_neg same, compare_heads head other same]
            cases order : compare (unitPlace head) (unitPlace other) with
            | eq => exact absurd (unitPlace_injective _ _ (Nat.compare_eq_eq.mp order)) same
            | _ => rfl

/-! ## A total order -/

theorem compareCodePoints_swap (left right : Text) :
    compareCodePoints right left = -compareCodePoints left right := by
  induction left generalizing right with
  | nil =>
      cases right with
      | nil => rfl
      | cons other others => simp [compareCodePoints]
  | cons head rest ih =>
      cases right with
      | nil => simp [compareCodePoints]
      | cons other others =>
          rw [compareCodePoints, compareCodePoints]
          by_cases same : head = other
          · rw [if_pos same, if_pos same.symm, ih]
          · rw [if_neg same, if_neg (Ne.symm same)]
            cases isSurrogate head with
            | true => cases isSurrogate other with | true => simp | false => simp
            | false => cases isSurrogate other with | true => simp | false => simp

private theorem compare_int_eq (value : Int) : compare value 0 = .eq ↔ value = 0 :=
  Std.LawfulEqOrd.compare_eq_iff_eq

theorem compareCodePoints_eq_zero (left right : Text) :
    compareCodePoints left right = 0 ↔ left = right := by
  rw [← compare_int_eq, compareCodePoints_places, Std.LawfulEqOrd.compare_eq_iff_eq]
  exact ⟨fun same => List.map_injective_iff.mpr unitPlace_injective same, congrArg _⟩

private theorem isLE_iff (value : Int) : (compare value 0).isLE = true ↔ value ≤ 0 := by
  rcases lt_trichotomy value 0 with less | rfl | greater
  · rw [compare_int_lt value less]
    exact iff_of_true rfl less.le
  · exact iff_of_true rfl le_rfl
  · rw [compare_int_gt value greater]
    exact iff_of_false (by decide) (by omega)

theorem compareCodePoints_trans (first second third : Text)
    (before : compareCodePoints first second ≤ 0) (after : compareCodePoints second third ≤ 0) :
    compareCodePoints first third ≤ 0 := by
  rw [← isLE_iff, compareCodePoints_places] at before after ⊢
  exact Std.TransOrd.isLE_trans before after

/-! ## The order of encodings -/

private theorem places_basic (scalar : Char) (basic : scalar.toNat < 0x10000) :
    (unitsOf scalar).map unitPlace = [scalar.toNat] := by
  have valid := toNat_valid scalar
  have unit : (UInt16.ofNat scalar.toNat).toNat = scalar.toNat := by
    rw [UInt16.toNat_ofNat']
    omega
  rw [unitsOf_basic scalar basic, List.map_singleton, unitPlace, unit, if_neg]
  rw [isSurrogate, unit]
  simp
  omega

private theorem places_astral (scalar : Char) (astral : ¬scalar.toNat < 0x10000) :
    (unitsOf scalar).map unitPlace =
      [0x1d800 + (scalar.toNat - 0x10000) / 0x400, 0x1dc00 + (scalar.toNat - 0x10000) % 0x400] := by
  have valid := toNat_valid scalar
  have place (value : Nat) (above : 0xd800 ≤ value) (below : value ≤ 0xdfff) :
      unitPlace (UInt16.ofNat value) = 0x10000 + value := by
    have unit : (UInt16.ofNat value).toNat = value := by
      rw [UInt16.toNat_ofNat']
      omega
    rw [unitPlace, unit, if_pos]
    rw [isSurrogate, unit]
    simp
    omega
  rw [unitsOf_astral scalar astral, List.map_cons, List.map_singleton,
    place _ (by omega) (by omega), place _ (by omega) (by omega), ← Nat.add_assoc, ← Nat.add_assoc]

private theorem compare_cons_lt (left right : Nat) (leftTail rightTail : List Nat)
    (before : left < right ∨ left = right ∧ compare leftTail rightTail = .lt) :
    compare (left :: leftTail) (right :: rightTail) = .lt := by
  rw [List.compare_cons_cons]
  rcases before with less | ⟨rfl, tails⟩
  · rw [Nat.compare_eq_lt.mpr less]
    rfl
  · rw [Std.ReflOrd.compare_self, tails]
    rfl

private theorem compare_places_lt (first second : Char) (leftTail rightTail : List Nat)
    (less : first.toNat < second.toNat) :
    compare ((unitsOf first).map unitPlace ++ leftTail)
      ((unitsOf second).map unitPlace ++ rightTail) = .lt := by
  have firstValid := toNat_valid first
  have secondValid := toNat_valid second
  by_cases firstBasic : first.toNat < 0x10000
  · rw [places_basic first firstBasic, List.singleton_append]
    by_cases secondBasic : second.toNat < 0x10000
    · rw [places_basic second secondBasic, List.singleton_append]
      exact compare_cons_lt _ _ _ _ (.inl less)
    · rw [places_astral second secondBasic, List.cons_append]
      exact compare_cons_lt _ _ _ _ (.inl (by omega))
  · rw [places_astral first firstBasic, places_astral second (by omega)]
    simp only [List.cons_append, List.nil_append]
    refine compare_cons_lt _ _ _ _ ?_
    rcases Nat.lt_or_ge ((first.toNat - 0x10000) / 0x400) ((second.toNat - 0x10000) / 0x400) with
      high | same
    · exact .inl (by omega)
    · exact .inr ⟨by omega, compare_cons_lt _ _ _ _ (.inl (by omega))⟩

private theorem compare_places (first second : Char) (different : first ≠ second)
    (leftTail rightTail : List Nat) :
    compare ((unitsOf first).map unitPlace ++ leftTail)
      ((unitsOf second).map unitPlace ++ rightTail) = compare first.toNat second.toNat := by
  rcases Nat.lt_trichotomy first.toNat second.toNat with less | same | greater
  · rw [compare_places_lt first second leftTail rightTail less, Nat.compare_eq_lt.mpr less]
  · exact absurd (Char.toNat_inj.mp same) different
  · rw [Std.OrientedOrd.eq_swap, compare_places_lt second first rightTail leftTail greater,
      Nat.compare_eq_gt.mpr greater]
    rfl

/-- Well-formed strings are compared as their UTF-8 bytes. -/
theorem compareCodePoints_utf8 (left right : Text) (leftFormed : IsWellFormed left)
    (rightFormed : IsWellFormed right) :
    compare (compareCodePoints left right) 0 = compare (utf8Encode left) (utf8Encode right) := by
  have places (scalars : List Char) : (ofScalars scalars).map unitPlace =
      scalars.flatMap fun scalar => (unitsOf scalar).map unitPlace := by
    rw [ofScalars, List.map_flatMap]
  have nonempty (scalar : Char) : (unitsOf scalar).map unitPlace ≠ [] := by
    unfold unitsOf
    split
    · exact List.cons_ne_nil _ _
    · exact List.cons_ne_nil _ _
  rw [compareCodePoints_places, compare_utf8Encode]
  nth_rewrite 1 [← leftFormed]
  nth_rewrite 1 [← rightFormed]
  rw [toWellFormed, toWellFormed, places, places, compare_flatMap _ nonempty]
  · refine (decideAt_eq_decideAt _ _ _ _).mpr fun first second found => ?_
    have plain := compare_places first second (firstDifference_ne _ _ first second found) [] []
    rwa [List.append_nil, List.append_nil] at plain
  · intro first second different leftTail rightTail
    have plain := compare_places first second different [] []
    rw [List.append_nil, List.append_nil] at plain
    rw [plain, compare_places first second different]

/-! ## Sorting by it -/

theorem codePointsLe_iff (left right : Text) :
    codePointsLe left right = true ↔ compareCodePoints left right ≤ 0 := by
  induction left generalizing right with
  | nil =>
      rw [codePointsLe, compareCodePoints]
      · exact iff_of_true rfl (by simp)
      · exact nofun
  | cons head rest ih =>
      cases right with
      | nil =>
          refine iff_of_false (by simp [codePointsLe]) ?_
          simp only [compareCodePoints, List.length_cons, List.length_nil]
          omega
      | cons other others =>
          rw [codePointsLe, compareCodePoints]
          by_cases same : head = other
          · rw [if_pos same, if_pos same, ih]
          · rw [if_neg same, if_neg same]
            have apart : head.toNat ≠ other.toNat := fun equal => same (UInt16.toNat_inj.mp equal)
            cases isSurrogate head with
            | true =>
                cases isSurrogate other with
                | true => simp; omega
                | false => simp
            | false =>
                cases isSurrogate other with
                | true => simp
                | false => simp; omega

end VgiWorker.Codec
