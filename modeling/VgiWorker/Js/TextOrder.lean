import VgiWorker.Data.FirstDifference
import VgiWorker.Js.Text

/-!
# The order of strings

`<` compares strings by code units; the UTF-8 encodings of two strings are
ordered as their scalar values. The two orders part where a surrogate pair
meets a code unit from U+E000 on.
-/

set_option autoImplicit false

namespace VgiWorker.Js

open FirstDifference

/-! ## UTF-8 -/

private theorem compare_bytes_lt (first second : Nat) (leftTail rightTail : Bytes)
    (firstBound : first < 256) (secondBound : second < 256)
    (before : first < second ∨ first = second ∧ compare leftTail rightTail = .lt) :
    compare (UInt8.ofNat first :: leftTail) (UInt8.ofNat second :: rightTail) = .lt := by
  rw [List.compare_cons_cons]
  rcases before with less | ⟨rfl, tails⟩
  · have lessByte : UInt8.ofNat first < UInt8.ofNat second := by
      rw [UInt8.lt_iff_toNat_lt, UInt8.toNat_ofNat', UInt8.toNat_ofNat']
      omega
    have order : compare (UInt8.ofNat first) (UInt8.ofNat second) = .lt := if_pos lessByte
    rw [order]
    rfl
  · rw [Std.ReflOrd.compare_self, tails]
    rfl

section

variable (scalar : Char)

private theorem encode_one (range : scalar.toNat ≤ 0x7f) :
    String.utf8EncodeChar scalar = [UInt8.ofNat scalar.toNat] :=
  if_pos range

private theorem encode_two (above : ¬scalar.toNat ≤ 0x7f) (range : scalar.toNat ≤ 0x7ff) :
    String.utf8EncodeChar scalar =
      [UInt8.ofNat (scalar.toNat / 64 % 0x20 + 0xc0), UInt8.ofNat (scalar.toNat % 0x40 + 0x80)] :=
  (if_neg above).trans (if_pos range)

private theorem encode_three (above : ¬scalar.toNat ≤ 0x7ff) (range : scalar.toNat ≤ 0xffff) :
    String.utf8EncodeChar scalar =
      [UInt8.ofNat (scalar.toNat / 4096 % 0x10 + 0xe0),
        UInt8.ofNat (scalar.toNat / 64 % 0x40 + 0x80),
        UInt8.ofNat (scalar.toNat % 0x40 + 0x80)] :=
  (if_neg fun low => above (Nat.le_trans low (by decide))).trans
    ((if_neg above).trans (if_pos range))

private theorem encode_four (above : ¬scalar.toNat ≤ 0xffff) :
    String.utf8EncodeChar scalar =
      [UInt8.ofNat (scalar.toNat / 262144 % 0x08 + 0xf0),
        UInt8.ofNat (scalar.toNat / 4096 % 0x40 + 0x80),
        UInt8.ofNat (scalar.toNat / 64 % 0x40 + 0x80),
        UInt8.ofNat (scalar.toNat % 0x40 + 0x80)] :=
  (if_neg fun low => above (Nat.le_trans low (by decide))).trans
    ((if_neg fun low => above (Nat.le_trans low (by decide))).trans (if_neg above))

end

/-- The encodings of two scalar values are ordered as the values, whatever follows. -/
theorem compare_utf8EncodeChar_lt (first second : Char) (leftTail rightTail : Bytes)
    (less : first.toNat < second.toNat) :
    compare (String.utf8EncodeChar first ++ leftTail) (String.utf8EncodeChar second ++ rightTail) =
      .lt := by
  have bound (scalar : Char) : scalar.toNat < 0x110000 := by
    rcases scalar.valid with low | ⟨_, high⟩
    · exact Nat.lt_trans low (by decide)
    · exact high
  have firstBound := bound first
  have secondBound := bound second
  by_cases firstOne : first.toNat ≤ 0x7f
  · rw [encode_one first firstOne]
    by_cases secondOne : second.toNat ≤ 0x7f
    · rw [encode_one second secondOne]
      exact compare_bytes_lt _ _ _ _ (by omega) (by omega) (.inl less)
    · by_cases secondTwo : second.toNat ≤ 0x7ff
      · rw [encode_two second secondOne secondTwo]
        exact compare_bytes_lt _ _ _ _ (by omega) (by omega) (.inl (by omega))
      · by_cases secondThree : second.toNat ≤ 0xffff
        · rw [encode_three second secondTwo secondThree]
          exact compare_bytes_lt _ _ _ _ (by omega) (by omega) (.inl (by omega))
        · rw [encode_four second secondThree]
          exact compare_bytes_lt _ _ _ _ (by omega) (by omega) (.inl (by omega))
  · by_cases firstTwo : first.toNat ≤ 0x7ff
    · rw [encode_two first firstOne firstTwo]
      by_cases secondTwo : second.toNat ≤ 0x7ff
      · rw [encode_two second (by omega) secondTwo]
        refine compare_bytes_lt _ _ _ _ (by omega) (by omega) ?_
        rcases Nat.lt_or_ge (first.toNat / 64) (second.toNat / 64) with lead | same
        · exact .inl (by omega)
        · exact .inr ⟨by omega, compare_bytes_lt _ _ _ _ (by omega) (by omega) (.inl (by omega))⟩
      · by_cases secondThree : second.toNat ≤ 0xffff
        · rw [encode_three second secondTwo secondThree]
          exact compare_bytes_lt _ _ _ _ (by omega) (by omega) (.inl (by omega))
        · rw [encode_four second secondThree]
          exact compare_bytes_lt _ _ _ _ (by omega) (by omega) (.inl (by omega))
    · by_cases firstThree : first.toNat ≤ 0xffff
      · rw [encode_three first firstTwo firstThree]
        by_cases secondThree : second.toNat ≤ 0xffff
        · rw [encode_three second (by omega) secondThree]
          refine compare_bytes_lt _ _ _ _ (by omega) (by omega) ?_
          rcases Nat.lt_or_ge (first.toNat / 4096) (second.toNat / 4096) with lead | same
          · exact .inl (by omega)
          · refine .inr ⟨by omega, compare_bytes_lt _ _ _ _ (by omega) (by omega) ?_⟩
            rcases Nat.lt_or_ge (first.toNat / 64) (second.toNat / 64) with middle | sameMiddle
            · exact .inl (by omega)
            · exact .inr ⟨by omega,
                compare_bytes_lt _ _ _ _ (by omega) (by omega) (.inl (by omega))⟩
        · rw [encode_four second secondThree]
          exact compare_bytes_lt _ _ _ _ (by omega) (by omega) (.inl (by omega))
      · rw [encode_four first firstThree, encode_four second (by omega)]
        refine compare_bytes_lt _ _ _ _ (by omega) (by omega) ?_
        rcases Nat.lt_or_ge (first.toNat / 262144) (second.toNat / 262144) with lead | same
        · exact .inl (by omega)
        · refine .inr ⟨by omega, compare_bytes_lt _ _ _ _ (by omega) (by omega) ?_⟩
          rcases Nat.lt_or_ge (first.toNat / 4096) (second.toNat / 4096) with third | sameThird
          · exact .inl (by omega)
          · refine .inr ⟨by omega, compare_bytes_lt _ _ _ _ (by omega) (by omega) ?_⟩
            rcases Nat.lt_or_ge (first.toNat / 64) (second.toNat / 64) with second | sameSecond
            · exact .inl (by omega)
            · exact .inr ⟨by omega,
                compare_bytes_lt _ _ _ _ (by omega) (by omega) (.inl (by omega))⟩

theorem compare_utf8EncodeChar (first second : Char) (different : first ≠ second)
    (leftTail rightTail : Bytes) :
    compare (String.utf8EncodeChar first ++ leftTail) (String.utf8EncodeChar second ++ rightTail) =
      compare first.toNat second.toNat := by
  rcases Nat.lt_trichotomy first.toNat second.toNat with less | same | greater
  · rw [compare_utf8EncodeChar_lt first second leftTail rightTail less, Nat.compare_eq_lt.mpr less]
  · exact absurd (Char.toNat_inj.mp same) different
  · rw [Std.OrientedOrd.eq_swap,
      compare_utf8EncodeChar_lt second first rightTail leftTail greater,
      Nat.compare_eq_gt.mpr greater]
    rfl

/-- UTF-8 byte order is the order of scalar values. -/
theorem compare_utf8Encode (left right : Text) :
    compare (utf8Encode left) (utf8Encode right) =
      decideAt (fun first second => compare first.toNat second.toNat) (toScalars left)
        (toScalars right) := by
  unfold utf8Encode
  rw [compare_flatMap String.utf8EncodeChar (fun _ => String.utf8EncodeChar_ne_nil)]
  · refine (decideAt_eq_decideAt _ _ _ _).mpr fun first second found => ?_
    have different := firstDifference_ne _ _ first second found
    have plain := compare_utf8EncodeChar first second different [] []
    rwa [List.append_nil, List.append_nil] at plain
  · intro first second different leftTail rightTail
    have plain := compare_utf8EncodeChar first second different [] []
    rw [List.append_nil, List.append_nil] at plain
    rw [plain, compare_utf8EncodeChar first second different]

/-! ## Code units -/

/-- A surrogate pair against a code unit from U+E000 on, which is the greater one. -/
def PairMeetsHighUnit (first second : Char) : Prop :=
  0x10000 ≤ first.toNat ∧ 0xe000 ≤ second.toNat ∧ second.toNat < 0x10000

instance (first second : Char) : Decidable (PairMeetsHighUnit first second) :=
  inferInstanceAs (Decidable (_ ∧ _))

private theorem compare_units_lt (first second : Nat) (leftTail rightTail : Text)
    (firstBound : first < 0x10000) (secondBound : second < 0x10000)
    (before : first < second ∨ first = second ∧ compare leftTail rightTail = .lt) :
    compare (UInt16.ofNat first :: leftTail) (UInt16.ofNat second :: rightTail) = .lt := by
  rw [List.compare_cons_cons]
  rcases before with less | ⟨rfl, tails⟩
  · have lessUnit : UInt16.ofNat first < UInt16.ofNat second := by
      rw [UInt16.lt_iff_toNat_lt, UInt16.toNat_ofNat', UInt16.toNat_ofNat']
      omega
    have order : compare (UInt16.ofNat first) (UInt16.ofNat second) = .lt := if_pos lessUnit
    rw [order]
    rfl
  · rw [Std.ReflOrd.compare_self, tails]
    rfl

private theorem compare_unitsOf_lt (first second : Char) (leftTail rightTail : Text)
    (less : first.toNat < second.toNat) (apart : ¬PairMeetsHighUnit second first) :
    compare (unitsOf first ++ leftTail) (unitsOf second ++ rightTail) = .lt := by
  have firstValid := toNat_valid first
  have secondValid := toNat_valid second
  by_cases firstBasic : first.toNat < 0x10000
  · rw [unitsOf_basic first firstBasic]
    by_cases secondBasic : second.toNat < 0x10000
    · rw [unitsOf_basic second secondBasic]
      exact compare_units_lt _ _ _ _ firstBasic secondBasic (.inl less)
    · rw [unitsOf_astral second secondBasic]
      have low : first.toNat < 0xe000 := by
        by_contra high
        exact apart ⟨by omega, by omega, firstBasic⟩
      exact compare_units_lt _ _ _ _ firstBasic (by omega) (.inl (by omega))
  · rw [unitsOf_astral first firstBasic, unitsOf_astral second (by omega)]
    refine compare_units_lt _ _ _ _ (by omega) (by omega) ?_
    rcases Nat.lt_or_ge ((first.toNat - 0x10000) / 0x400) ((second.toNat - 0x10000) / 0x400) with
      lead | same
    · exact .inl (by omega)
    · exact .inr ⟨by omega, compare_units_lt _ _ _ _ (by omega) (by omega) (.inl (by omega))⟩

private theorem compare_unitsOf_pair (pair high : Char) (leftTail rightTail : Text)
    (meets : PairMeetsHighUnit pair high) :
    compare (unitsOf pair ++ leftTail) (unitsOf high ++ rightTail) = .lt := by
  obtain ⟨astral, above, basic⟩ := meets
  have valid := toNat_valid pair
  rw [unitsOf_astral pair (by omega), unitsOf_basic high basic]
  exact compare_units_lt _ _ _ _ (by omega) basic (.inl (by omega))

/-- Code-unit order is that of the scalar values, the other way round where a pair meets a
high unit. -/
theorem compare_unitsOf (first second : Char) (different : first ≠ second)
    (leftTail rightTail : Text) :
    compare (unitsOf first ++ leftTail) (unitsOf second ++ rightTail) =
      if PairMeetsHighUnit first second ∨ PairMeetsHighUnit second first then
        compare second.toNat first.toNat
      else compare first.toNat second.toNat := by
  rcases Nat.lt_trichotomy first.toNat second.toNat with less | same | greater
  · have notFirst : ¬PairMeetsHighUnit first second := fun meets => by
      have ⟨above, _, below⟩ := meets
      omega
    by_cases meets : PairMeetsHighUnit second first
    · rw [if_pos (.inr meets), Std.OrientedOrd.eq_swap,
        compare_unitsOf_pair second first rightTail leftTail meets, Nat.compare_eq_gt.mpr less]
      rfl
    · rw [if_neg (fun either => either.elim notFirst meets),
        compare_unitsOf_lt first second leftTail rightTail less meets, Nat.compare_eq_lt.mpr less]
  · exact absurd (Char.toNat_inj.mp same) different
  · have notSecond : ¬PairMeetsHighUnit second first := fun meets => by
      have ⟨above, _, below⟩ := meets
      omega
    by_cases meets : PairMeetsHighUnit first second
    · rw [if_pos (.inl meets), compare_unitsOf_pair first second leftTail rightTail meets,
        Nat.compare_eq_lt.mpr greater]
    · rw [if_neg (fun either => either.elim meets notSecond), Std.OrientedOrd.eq_swap,
        compare_unitsOf_lt second first rightTail leftTail greater meets,
        Nat.compare_eq_gt.mpr greater]
      rfl

theorem compare_ofScalars (left right : List Char) :
    compare (ofScalars left) (ofScalars right) =
      decideAt (fun first second =>
        if PairMeetsHighUnit first second ∨ PairMeetsHighUnit second first then
          compare second.toNat first.toNat
        else compare first.toNat second.toNat) left right := by
  unfold ofScalars
  have nonempty (scalar : Char) : unitsOf scalar ≠ [] := by
    unfold unitsOf
    split <;> exact List.cons_ne_nil _ _
  rw [compare_flatMap unitsOf nonempty]
  · refine (decideAt_eq_decideAt _ _ _ _).mpr fun first second found => ?_
    have plain := compare_unitsOf first second (firstDifference_ne _ _ first second found) [] []
    rwa [List.append_nil, List.append_nil] at plain
  · intro first second different leftTail rightTail
    have plain := compare_unitsOf first second different [] []
    rw [List.append_nil, List.append_nil] at plain
    rw [plain, compare_unitsOf first second different]

/-- Where the two orders agree. -/
def ScalarsInOrder (left right : Text) : Prop :=
  ∀ first second, firstDifference (toScalars left) (toScalars right) = some (first, second) →
    ¬PairMeetsHighUnit first second ∧ ¬PairMeetsHighUnit second first

/-- Well-formed strings are in code-unit order as their UTF-8 bytes unless a surrogate pair meets
a high unit where they first differ. -/
theorem compare_units_eq_utf8_iff (left right : Text) (leftFormed : IsWellFormed left)
    (rightFormed : IsWellFormed right) :
    compare left right = compare (utf8Encode left) (utf8Encode right) ↔
      ScalarsInOrder left right := by
  have units := compare_ofScalars (toScalars left) (toScalars right)
  rw [← toWellFormed, ← toWellFormed, leftFormed, rightFormed] at units
  rw [units, compare_utf8Encode, decideAt_eq_decideAt]
  refine forall_congr' fun first => forall_congr' fun second => imp_congr_right fun found => ?_
  have different : first.toNat ≠ second.toNat := fun same =>
    firstDifference_ne _ _ first second found (Char.toNat_inj.mp same)
  rw [← not_or]
  by_cases meets : PairMeetsHighUnit first second ∨ PairMeetsHighUnit second first
  · rw [if_pos meets]
    refine iff_of_false (fun same => ?_) (not_not_intro meets)
    rcases Nat.lt_or_gt_of_ne different with less | greater
    · rw [Nat.compare_eq_lt.mpr less, Nat.compare_eq_gt.mpr less] at same
      cases same
    · rw [Nat.compare_eq_gt.mpr greater, Nat.compare_eq_lt.mpr greater] at same
      cases same
  · rw [if_neg meets]
    exact iff_of_true rfl meets

end VgiWorker.Js
