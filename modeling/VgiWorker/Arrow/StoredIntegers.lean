import Mathlib.Tactic.LinearCombination
import VgiWorker.Arrow.CanonicalColumn
import VgiWorker.Data.Result
import VgiWorker.Js.Bytes
import VgiWorker.Js.NumberProperties

/-!
# Integers in fixed-width storage

An element of an integer array and the bytes of a decimal hold an integer modulo
their width; the integers of the width are the ones that come back.
-/

set_option autoImplicit false

namespace VgiWorker.Arrow

open VgiWorker.Js

/-! ## Wrapping -/

/-- The integers of a signed type. -/
def InSigned (bitWidth : Nat) (value : Int) : Prop :=
  -2 ^ (bitWidth - 1) ≤ value ∧ value < 2 ^ (bitWidth - 1)

instance (bitWidth : Nat) (value : Int) : Decidable (InSigned bitWidth value) :=
  inferInstanceAs (Decidable (_ ∧ _))

theorem bmod_eq_self_iff (bitWidth : Nat) (positive : 0 < bitWidth) (value : Int) :
    value.bmod (2 ^ bitWidth) = value ↔ InSigned bitWidth value := by
  obtain ⟨width, rfl⟩ : ∃ width, bitWidth = width + 1 := ⟨bitWidth - 1, by omega⟩
  have double : (2 : Nat) ^ (width + 1) = 2 ^ width * 2 := Nat.pow_succ 2 width
  have lower : ((2 ^ (width + 1) : Nat) : Int) / 2 = 2 ^ width := by
    rw [double]
    push_cast
    exact Int.mul_ediv_cancel _ (by decide)
  have upper : (((2 ^ (width + 1) : Nat) : Int) + 1) / 2 = 2 ^ width := by
    rw [double]
    push_cast
    omega
  rw [Int.bmod_eq_iff (Nat.two_pow_pos _), lower, upper, InSigned, Nat.add_sub_cancel]
  simp

theorem wrapInt_signed_iff (bitWidth : Nat) (positive : 0 < bitWidth) (value : Int) :
    wrapInt bitWidth true value = value ↔ InSigned bitWidth value := by
  rw [wrapInt, if_pos rfl]
  exact bmod_eq_self_iff bitWidth positive value

/-- A 64-bit element, read through the type's own array. -/
theorem wrapInt_wrapInt (bitWidth : Nat) (signed : Bool) (value : Int) :
    wrapInt bitWidth signed (wrapInt bitWidth true value) = wrapInt bitWidth signed value := by
  cases signed with
  | true => simp [wrapInt]
  | false =>
      have same := Int.bmod_emod (x := value) (m := 2 ^ bitWidth)
      push_cast at same
      simpa [wrapInt] using same

theorem wrapInt_of_range (bitWidth : Nat) (positive : 0 < bitWidth) (signed : Bool) (value : Int)
    (low : (if signed then -2 ^ (bitWidth - 1) else 0) ≤ value)
    (high : value ≤ (if signed then 2 ^ (bitWidth - 1) else 2 ^ bitWidth) - 1) :
    wrapInt bitWidth signed value = value := by
  cases signed with
  | true =>
      refine (wrapInt_signed_iff bitWidth positive value).mpr ⟨low, ?_⟩
      simp only [if_true] at high
      omega
  | false =>
      simp only [Bool.false_eq_true, if_false] at low high
      rw [wrapInt, if_neg Bool.false_ne_true]
      exact Int.emod_eq_of_lt low (by omega)

theorem toInt32_of_toInt? (number : Number) (value : Int) (integral : number.toInt? = some value) :
    toInt32 number = wrapInt 32 true value := by
  have rational := (Number.toInt?_eq_some number value).mp integral
  have whole : Number.truncate (value : ℚ) = value := by
    unfold Number.truncate
    split
    · rw [← Int.cast_neg, Rat.floor_intCast, neg_neg]
    · exact Rat.floor_intCast value
  rw [toInt32, rational]
  dsimp only
  rw [whole]

/-! ## Numbers of integers -/

private theorem ofInt_ne_negativeZero (value : Int) : Number.ofInt value ≠ .negativeZero := by
  intro same
  unfold Number.ofInt Number.ofRat at same
  dsimp only at same
  split at same
  · rw [if_neg Bool.false_ne_true] at same
    cases same
  · split at same <;> cases same

/-- Only negative zero is not the number of its integer. -/
theorem ofInt_eq_iff (number : Number) (value : Int) (integral : number.toInt? = some value) :
    Number.ofInt value = number ↔ number ≠ .negativeZero := by
  constructor
  · intro same isZero
    exact ofInt_ne_negativeZero value (same.trans isZero)
  · intro nonzero
    have ofValue := Number.toRat?_ofInt_toInt? number value integral
    have ofNumber := (Number.toInt?_eq_some number value).mp integral
    cases held : Number.ofInt value with
    | nan => rw [held] at ofValue; cases ofValue
    | infinity negative => rw [held] at ofValue; cases ofValue
    | negativeZero => exact absurd held (ofInt_ne_negativeZero value)
    | finite left =>
        rw [held] at ofValue
        cases number with
        | nan => cases ofNumber
        | infinity negative => cases ofNumber
        | negativeZero => exact absurd rfl nonzero
        | finite right =>
            have same : left.val = right.val :=
              Option.some.inj (ofValue.trans ofNumber.symm)
            rw [Subtype.ext same]

private theorem toInt?_ofInt (value : Int) (small : |value| ≤ 2 ^ 53) :
    (Number.ofInt value).toInt? = some value :=
  (Number.toInt?_eq_some _ _).mpr (Number.toRat?_ofInt_exact value small)

/-- The number of a 32-bit element is the number stored when that is an integer of 32 bits. -/
theorem ofInt_wrapInt_iff (number : Number) (value : Int) (integral : number.toInt? = some value) :
    Number.ofInt (wrapInt 32 true value) = number ↔
      number ≠ .negativeZero ∧ InSigned 32 value := by
  constructor
  · intro same
    have low : -(2 ^ 31 : Int) ≤ value.bmod (2 ^ 32) := Int.le_bmod (by decide)
    have high : value.bmod (2 ^ 32) < 2 ^ 31 := Int.bmod_lt (by decide)
    have kept := toInt?_ofInt (wrapInt 32 true value) (abs_le.mpr (by
      rw [wrapInt, if_pos rfl]
      omega))
    rw [same, integral, Option.some.injEq] at kept
    exact ⟨fun isZero => ofInt_ne_negativeZero _ (same.trans isZero),
      (wrapInt_signed_iff 32 (by decide) value).mp kept.symm⟩
  · rintro ⟨nonzero, inside⟩
    rw [(wrapInt_signed_iff 32 (by decide) value).mpr inside]
    exact (ofInt_eq_iff number value integral).mpr nonzero

theorem toInt?_ofInt_safe (value : Int) (safe : value.natAbs ≤ Number.maxSafeInteger) :
    (Number.ofInt value).toInt? = some value ∧ Number.ofInt value ≠ .negativeZero := by
  refine ⟨toInt?_ofInt value ?_, ofInt_ne_negativeZero value⟩
  rw [Int.abs_eq_natAbs]
  unfold Number.maxSafeInteger at safe
  omega

/-! ## Half floats -/

private theorem toRat?_ofRat_grid (negative : Bool) (digits exponent : Int)
    (small : |digits| < 2 ^ 11) (low : -24 ≤ exponent) (high : exponent ≤ 5) :
    (Number.ofRat negative (digits * pow2 exponent)).toRat? = some (digits * pow2 exponent) := by
  have bounded : |(digits : ℚ) * pow2 exponent| ≤ pow2 1023 := by
    have scale := pow2_le_pow2 exponent 5 high
    have magnitude : |(digits : ℚ)| ≤ pow2 11 := by
      rw [pow2_eq_intCast 11 (by norm_num), ← Int.cast_abs]
      exact_mod_cast small.le
    calc |(digits : ℚ) * pow2 exponent|
        = |(digits : ℚ)| * pow2 exponent := by rw [abs_mul, abs_of_pos (pow2_pos exponent)]
      _ ≤ pow2 11 * pow2 5 :=
          mul_le_mul magnitude scale (pow2_pos exponent).le (pow2_pos 11).le
      _ = pow2 16 := (pow2_add 11 5).symm
      _ ≤ pow2 1023 := pow2_le_pow2 16 1023 (by norm_num)
  rw [Number.toRat?_ofRat negative _ bounded,
    roundSignificand_of_grid digits exponent (by omega) (small.le.trans (by norm_num))]

/-- The parts of a half float: its significand, and the exponent of its last bit. -/
private theorem halfOfBits_finite (bits : Nat) (finite : bits / 2 ^ 10 % 2 ^ 5 ≠ 31) :
    ∃ (digits : Nat) (exponent : Int), digits < 2 ^ 11 ∧ -24 ≤ exponent ∧ exponent ≤ 5 ∧
      (halfOfBits bits).toRat? = some
        (((if 2 ^ 15 ≤ bits % 2 ^ 16 then -digits else digits : Int) : ℚ) * pow2 exponent) ∧
      (bits / 2 ^ 10 % 2 ^ 5 = 0 → digits = bits % 2 ^ 10 ∧ exponent = -24) ∧
      (bits / 2 ^ 10 % 2 ^ 5 ≠ 0 → digits = 2 ^ 10 + bits % 2 ^ 10 ∧
        exponent = (bits / 2 ^ 10 % 2 ^ 5 : Nat) - 25) := by
  have fraction : bits % 2 ^ 10 < 2 ^ 10 := Nat.mod_lt _ (by decide)
  have exponentLt : bits / 2 ^ 10 % 2 ^ 5 < 32 := Nat.mod_lt _ (by decide)
  have value (digits : Nat) (exponent : Int) (small : digits < 2 ^ 11) (low : -24 ≤ exponent)
      (high : exponent ≤ 5) : (Number.ofRat (decide (2 ^ 15 ≤ bits % 2 ^ 16))
        (if decide (2 ^ 15 ≤ bits % 2 ^ 16) = true then -((digits : ℚ) * pow2 exponent)
          else (digits : ℚ) * pow2 exponent)).toRat? = some
        (((if 2 ^ 15 ≤ bits % 2 ^ 16 then -digits else digits : Int) : ℚ) * pow2 exponent) := by
    have grid := toRat?_ofRat_grid (decide (2 ^ 15 ≤ bits % 2 ^ 16))
      (if 2 ^ 15 ≤ bits % 2 ^ 16 then -digits else digits) exponent
      (by split <;> simp only [abs_neg, Nat.abs_cast] <;> exact_mod_cast small) low high
    by_cases negative : 2 ^ 15 ≤ bits % 2 ^ 16
    · simpa [negative] using grid
    · simpa [negative] using grid
  by_cases subnormal : bits / 2 ^ 10 % 2 ^ 5 = 0
  · refine ⟨bits % 2 ^ 10, -24, by omega, by norm_num, by norm_num, ?_, fun _ => ⟨rfl, rfl⟩,
      fun normal => absurd subnormal normal⟩
    unfold halfOfBits
    simp only [if_neg finite, if_pos subnormal]
    exact value (bits % 2 ^ 10) (-24) (by omega) (by norm_num) (by norm_num)
  · refine ⟨2 ^ 10 + bits % 2 ^ 10, (bits / 2 ^ 10 % 2 ^ 5 : Nat) - 25, by omega, by omega, by omega,
      ?_, fun zero => absurd zero subnormal, fun _ => ⟨rfl, rfl⟩⟩
    unfold halfOfBits
    simp only [if_neg finite, if_neg subnormal]
    exact value (2 ^ 10 + bits % 2 ^ 10) ((bits / 2 ^ 10 % 2 ^ 5 : Nat) - 25) (by omega)
      (by omega) (by omega)

private theorem pow2_mul_pow (exponent : Int) (more : Nat) :
    pow2 exponent * 2 ^ more = pow2 (exponent + more) := by
  rw [pow2_add, pow2_eq more, zpow_natCast]

/-- A positive normal float is below its bits up to the exponent 25, and away from them after. -/
private theorem not_scaled (exponent fraction : Nat) (normal : 1 ≤ exponent)
    (bound : exponent ≤ 30) (small : fraction < 2 ^ 10) :
    (2 ^ 10 + fraction) * 2 ^ exponent ≠ (2 ^ 10 * exponent + fraction) * 2 ^ 25 := by
  intro same
  rcases Nat.lt_or_ge 25 exponent with high | low
  · obtain ⟨more, rfl⟩ : ∃ more, exponent = 25 + more := ⟨exponent - 25, by omega⟩
    have reduced : (2 ^ 10 + fraction) * 2 ^ more = 2 ^ 10 * (25 + more) + fraction := by
      rw [Nat.pow_add, Nat.mul_comm (2 ^ 25), ← Nat.mul_assoc] at same
      exact Nat.eq_of_mul_eq_mul_right (Nat.two_pow_pos 25) same
    obtain rfl | rfl | rfl | rfl | rfl : more = 1 ∨ more = 2 ∨ more = 3 ∨ more = 4 ∨ more = 5 := by
      omega
    all_goals omega
  · obtain ⟨rest, isRest⟩ : ∃ rest, 25 = exponent + rest := ⟨25 - exponent, by omega⟩
    have reduced : 2 ^ 10 + fraction = (2 ^ 10 * exponent + fraction) * 2 ^ rest := by
      rw [isRest, Nat.pow_add, ← Nat.mul_assoc, Nat.mul_right_comm] at same
      exact Nat.eq_of_mul_eq_mul_right (Nat.two_pow_pos exponent) same
    have grows : 2 ^ 10 * exponent + fraction ≤ (2 ^ 10 * exponent + fraction) * 2 ^ rest :=
      Nat.le_mul_of_pos_right _ (Nat.two_pow_pos rest)
    obtain rfl : exponent = 1 := by omega
    obtain rfl : rest = 24 := by omega
    omega

/-- Only the bits of zero are the number of their own float. -/
theorem ofNat_eq_halfOfBits (bits : Nat) (small : bits < 2 ^ 16)
    (same : Number.ofNat bits = halfOfBits bits) : bits = 0 := by
  have number : (Number.ofNat bits).toRat? = some (bits : ℚ) := by
    have exact' := Number.toRat?_ofInt_exact bits (by rw [Nat.abs_cast]; omega)
    simpa [Number.ofNat] using exact'
  have normalized : bits % 2 ^ 16 = bits := Nat.mod_eq_of_lt small
  by_cases finite : bits / 2 ^ 10 % 2 ^ 5 = 31
  · -- An infinity or a NaN is no integer.
    rw [same] at number
    unfold halfOfBits at number
    simp only [if_pos finite] at number
    split at number <;> cases number
  · obtain ⟨digits, exponent, _, _, _, float, subnormal, normal⟩ := halfOfBits_finite bits finite
    rw [same, float, Option.some.injEq] at number
    have scale := pow2_pos exponent
    rw [normalized] at number
    by_cases negative : 2 ^ 15 ≤ bits
    · exfalso
      rw [if_pos negative] at number
      push_cast at number
      have positive : (0 : ℚ) < bits := by exact_mod_cast (by omega : 0 < bits)
      have below : -(digits : ℚ) * pow2 exponent ≤ 0 := by
        have above : (0 : ℚ) ≤ digits * pow2 exponent := by positivity
        linarith
      linarith
    · rw [if_neg negative] at number
      push_cast at number
      by_cases zero : bits / 2 ^ 10 % 2 ^ 5 = 0
      · obtain ⟨rfl, rfl⟩ := subnormal zero
        have scaled : (bits % 2 ^ 10) * 1 = bits * 2 ^ 24 := by
          have known : ((bits % 2 ^ 10 : Nat) : ℚ) * 1 = bits * 2 ^ 24 := by
            rw [← number, mul_assoc, pow2_mul_pow (-24) 24]
            rfl
          exact_mod_cast known
        have below : bits * 2 ^ 24 ≤ bits * 1 := by
          rw [← scaled, Nat.mul_one, Nat.mul_one]
          exact Nat.mod_le bits (2 ^ 10)
        rcases Nat.eq_zero_or_pos bits with none | some
        · exact none
        · exact absurd (Nat.le_of_mul_le_mul_left below some) (by decide)
      · obtain ⟨rfl, rfl⟩ := normal zero
        have scaled : (2 ^ 10 + bits % 2 ^ 10) * 2 ^ (bits / 2 ^ 10 % 2 ^ 5) = bits * 2 ^ 25 := by
          have known : ((2 ^ 10 + bits % 2 ^ 10 : Nat) : ℚ) * 2 ^ (bits / 2 ^ 10 % 2 ^ 5) =
              bits * 2 ^ 25 := by
            have exponents : ((bits / 2 ^ 10 % 2 ^ 5 : Nat) : Int) - 25 + (25 : Nat) =
                (bits / 2 ^ 10 % 2 ^ 5 : Nat) := by omega
            rw [← number, mul_assoc, pow2_mul_pow _ 25, exponents, pow2_eq, zpow_natCast]
          exact_mod_cast known
        exfalso
        refine not_scaled (bits / 2 ^ 10 % 2 ^ 5) (bits % 2 ^ 10) (by omega) (by omega)
          (Nat.mod_lt _ (by decide)) (scaled.trans ?_)
        congr 1
        omega

/-- A half column reads as the bits of the number, so only a number that rounds to zero is read
back. -/
theorem ofNat_halfBits_iff (bits : Nat) (small : bits < 2 ^ 16) :
    Number.ofNat bits = halfOfBits bits ↔ halfOfBits bits = Number.zero := by
  have zeroBits : halfOfBits 0 = Number.zero := by decide +kernel
  constructor
  · intro same
    rw [ofNat_eq_halfOfBits bits small same]
    exact zeroBits
  · intro zero
    by_cases finite : bits / 2 ^ 10 % 2 ^ 5 = 31
    · unfold halfOfBits at zero
      simp only [if_pos finite] at zero
      split at zero <;> cases zero
    · obtain ⟨digits, exponent, _, _, _, float, subnormal, normal⟩ := halfOfBits_finite bits finite
      have none : (if 2 ^ 15 ≤ bits % 2 ^ 16 then -digits else digits : Int) = 0 := by
        rw [zero] at float
        have product := Option.some.inj float
        have digitsZero := (mul_eq_zero.mp product.symm).resolve_right (pow2_pos exponent).ne'
        exact_mod_cast digitsZero
      have digitsZero : digits = 0 := by
        split at none <;> omega
      have noExponent : bits / 2 ^ 10 % 2 ^ 5 = 0 := by
        by_contra some
        have := (normal some).1
        omega
      have noFraction := (subnormal noExponent).1
      -- What is left is the sign.
      obtain rfl | rfl : bits = 0 ∨ bits = 2 ^ 15 := by omega
      · decide +kernel
      · exact absurd zero (by decide +kernel)

/-! ## Decimal bytes -/

private theorem length_decimalBytes (count : Nat) (value : Int) :
    (decimalBytes count value).length = count := by
  induction count generalizing value with
  | zero => rfl
  | succ count ih => simp [decimalBytes, ih]

theorem length_bigIntToDecimalBytes (value : Int) (byteWidth : Nat) :
    (bigIntToDecimalBytes value byteWidth).length = byteWidth :=
  length_decimalBytes byteWidth _

private theorem emod_mul_split (value base rest : Int) (basePos : 0 < base) (restPos : 0 < rest) :
    value % (base * rest) = value % base + base * (value / base % rest) := by
  have low := Int.emod_nonneg value (ne_of_gt basePos)
  have lowLt := Int.emod_lt_of_pos value basePos
  have high := Int.emod_nonneg (value / base) (ne_of_gt restPos)
  have highLt := Int.emod_lt_of_pos (value / base) restPos
  have parts : value =
      (value % base + base * (value / base % rest)) + base * rest * (value / base / rest) := by
    have outer := Int.emod_add_mul_ediv value base
    have inner := Int.emod_add_mul_ediv (value / base) rest
    linear_combination -outer - base * inner
  have bound : value % base + base * (value / base % rest) < base * rest := by
    nlinarith only [lowLt, highLt, basePos]
  calc value % (base * rest)
      = (value % base + base * (value / base % rest) + base * rest * (value / base / rest)) %
          (base * rest) := by rw [← parts]
    _ = (value % base + base * (value / base % rest)) % (base * rest) :=
        Int.add_mul_emod_self_left _ _ _
    _ = value % base + base * (value / base % rest) :=
        Int.emod_eq_of_lt (by positivity) bound

private theorem leValue_decimalBytes (count : Nat) (value : Int) :
    (leValue (decimalBytes count value) : Int) = value % 256 ^ count := by
  induction count generalizing value with
  | zero => simp [decimalBytes, leValue]
  | succ count ih =>
      have digit : ((UInt8.ofNat (value % 256).toNat).toNat : Int) = value % 256 := by
        rw [UInt8.toNat_ofNat']
        omega
      have split : value % 256 ^ (count + 1) = value % 256 + 256 * (value / 256 % 256 ^ count) := by
        rw [pow_succ', emod_mul_split value 256 (256 ^ count) (by decide) (by positivity)]
      rw [decimalBytes, leValue]
      push_cast
      rw [digit, ih, split]

private theorem foldr_eq_leValue (bytes : Bytes) :
    bytes.foldr (fun byte value => byte.toNat + 256 * value) 0 = leValue bytes := by
  induction bytes with
  | nil => rfl
  | cons byte rest ih => rw [List.foldr_cons, ih, leValue]

/-- The top bit of the last byte is that of the magnitude. -/
private theorem top_bit_iff (first : UInt8) (rest : Bytes) :
    (first :: rest).getLast?.any (fun byte => decide (128 ≤ byte.toNat)) = true ↔
      128 * 256 ^ rest.length ≤ leValue (first :: rest) := by
  induction rest generalizing first with
  | nil => simp [leValue]
  | cons next later ih =>
      have low := first.toNat_lt
      have whole : leValue (first :: next :: later) = first.toNat + 256 * leValue (next :: later) :=
        rfl
      rw [List.getLast?_cons_cons, ih next, whole, List.length_cons, Nat.pow_succ']
      omega

private theorem decimalViewToBigInt_eq (first : UInt8) (rest : Bytes) :
    decimalViewToBigInt (first :: rest) =
      (leValue (first :: rest) : Int).bmod (256 ^ (rest.length + 1)) := by
  have bound := leValue_lt (first :: rest)
  have half : (256 : Nat) ^ (rest.length + 1) = 2 * (128 * 256 ^ rest.length) := by
    rw [Nat.pow_succ]
    omega
  have small : (leValue (first :: rest) : Int) % ((256 ^ (rest.length + 1) : Nat) : Int) =
      leValue (first :: rest) :=
    Int.emod_eq_of_lt (by positivity) (by exact_mod_cast bound)
  rw [decimalViewToBigInt, foldr_eq_leValue, Int.bmod_eq_emod, small]
  by_cases top : 128 * 256 ^ rest.length ≤ leValue (first :: rest)
  · rw [if_pos ((top_bit_iff first rest).mpr top), if_pos (by rw [half]; omega), List.length_cons]
    push_cast
    rfl
  · rw [if_neg fun bit => top ((top_bit_iff first rest).mp bit), if_neg (by rw [half]; omega)]
    exact (sub_zero _).symm

/-- The bytes of a decimal hold it modulo their width. -/
theorem decimalViewToBigInt_bytes (value : Int) (byteWidth : Nat) (positive : 0 < byteWidth) :
    decimalViewToBigInt (bigIntToDecimalBytes value byteWidth) =
      value.bmod (2 ^ (8 * byteWidth)) := by
  have width : (256 : Nat) ^ byteWidth = 2 ^ (8 * byteWidth) := by
    rw [Nat.pow_mul]
  have length := length_bigIntToDecimalBytes value byteWidth
  cases written : bigIntToDecimalBytes value byteWidth with
  | nil =>
      rw [written, List.length_nil] at length
      omega
  | cons first rest =>
      rw [written, List.length_cons] at length
      rw [decimalViewToBigInt_eq, length, ← written, bigIntToDecimalBytes, leValue_decimalBytes,
        ← width]
      have modulus : ((256 ^ byteWidth : Nat) : Int) = 256 ^ byteWidth := by push_cast; rfl
      rw [← modulus, Int.emod_bmod]
      split
      · have turn : (2 : Int) ^ (byteWidth * 8) = ((256 ^ byteWidth : Nat) : Int) := by
          rw [width, Nat.mul_comm 8]
          push_cast
          rfl
        rw [turn, Int.add_bmod_left]
      · rfl

end VgiWorker.Arrow
