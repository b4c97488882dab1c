import Mathlib.Algebra.Order.Field.Rat
import Mathlib.Algebra.Order.Floor.Ring
import Mathlib.Data.Prod.Lex
import Mathlib.Data.Rat.Floor
import Mathlib.Tactic.FieldSimp
import Mathlib.Tactic.Linarith
import Mathlib.Tactic.Positivity
import Mathlib.Tactic.Ring
import VgiWorker.Js.Text

/-!
# ECMAScript numbers

An IEEE 754 binary64 value is a rational of at most 53 significant bits, a
negative zero, an infinity or a NaN. Every operation is the exact one followed
by rounding to nearest, ties to even.
-/

set_option autoImplicit false

namespace VgiWorker.Js

/-! ## Rounding -/

def pow2 (exponent : Int) : ℚ :=
  match exponent with
  | .ofNat power => ((2 ^ power : Nat) : ℚ)
  | .negSucc power => mkRat 1 (2 ^ (power + 1))

/-- The largest `exponent` with `2 ^ exponent ≤ |value|`, for a nonzero `value`. -/
def floorLog2 (value : ℚ) : Int :=
  let estimate : Int := (value.num.natAbs.log2 : Int) - (value.den.log2 : Int)
  if pow2 estimate ≤ |value| then estimate else estimate - 1

/-- The exponent of the last significant bit of the binary64 format at `value`. -/
def unitExponent (value : ℚ) : Int :=
  max (floorLog2 value - 52) (-1074)

def roundHalfEven (value : ℚ) : Int :=
  let below := value.floor
  let excess := value - below
  if excess < 1 / 2 then below
  else if 1 / 2 < excess then below + 1
  else if below % 2 = 0 then below
  else below + 1

/-- Rounding to 53 significant bits, with no upper bound on the exponent. -/
def roundSignificand (value : ℚ) : ℚ :=
  roundHalfEven (value / pow2 (unitExponent value)) * pow2 (unitExponent value)

/-- The finite nonzero values of the format, and zero. -/
def IsBinary64 (value : ℚ) : Prop :=
  roundSignificand value = value ∧ |value| < pow2 1024

instance (value : ℚ) : Decidable (IsBinary64 value) :=
  inferInstanceAs (Decidable (roundSignificand value = value ∧ |value| < pow2 1024))

inductive Number where
  | nan
  | infinity (negative : Bool)
  | negativeZero
  | finite (value : { value : ℚ // IsBinary64 value })
  deriving DecidableEq

namespace Number

private theorem isBinary64_zero : IsBinary64 0 := by decide +kernel

def zero : Number := .finite ⟨0, isBinary64_zero⟩

/-- Round to nearest; `negative` is the sign of a result of zero. -/
def ofRat (negative : Bool) (value : ℚ) : Number :=
  let rounded := roundSignificand value
  if rounded = 0 then
    if negative then .negativeZero else zero
  else if representable : IsBinary64 rounded then
    .finite ⟨rounded, representable⟩
  else
    .infinity (decide (value < 0))

/-- `Number(value)` for a bigint. -/
def ofInt (value : Int) : Number :=
  ofRat false value

def ofNat (value : Nat) : Number :=
  ofInt value

/-- The mathematical value of a finite number. -/
def toRat? : Number → Option ℚ
  | .nan => none
  | .infinity _ => none
  | .negativeZero => some 0
  | .finite value => some value.val

def isNegative : Number → Bool
  | .nan => false
  | .infinity negative => negative
  | .negativeZero => true
  | .finite value => decide (value.val < 0)

def isNaN (number : Number) : Bool :=
  number == .nan

def isFinite (number : Number) : Bool :=
  number.toRat?.isSome

/-- The value of an integral number; `BigInt(number)` throws on the others. -/
def toInt? (number : Number) : Option Int :=
  match number.toRat? with
  | some value => if value.den = 1 then some value.num else none
  | none => none

def maxSafeInteger : Nat := 2 ^ 53 - 1

def isSafeInteger (number : Number) : Bool :=
  match number.toInt? with
  | some value => decide (value.natAbs ≤ maxSafeInteger)
  | none => false

/-! ## Comparison -/

/-- `left === right`. -/
def strictEq (left right : Number) : Bool :=
  match left, right with
  | .infinity leftNegative, .infinity rightNegative => leftNegative == rightNegative
  | _, _ =>
      match left.toRat?, right.toRat? with
      | some leftValue, some rightValue => decide (leftValue = rightValue)
      | _, _ => false

/-- `left < right`. -/
def less (left right : Number) : Bool :=
  match left, right with
  | .nan, _ => false
  | _, .nan => false
  | .infinity true, .infinity true => false
  | .infinity true, _ => true
  | .infinity false, _ => false
  | _, .infinity negative => !negative
  | _, _ =>
      match left.toRat?, right.toRat? with
      | some leftValue, some rightValue => decide (leftValue < rightValue)
      | _, _ => false

/-- `left <= right`. -/
def lessEq (left right : Number) : Bool :=
  less left right || strictEq left right

/-! ## Arithmetic -/

def neg : Number → Number
  | .nan => .nan
  | .infinity negative => .infinity (!negative)
  | .negativeZero => zero
  | .finite value => ofRat (decide (value.val = 0)) (-value.val)

def add (left right : Number) : Number :=
  match left, right with
  | .nan, _ => .nan
  | _, .nan => .nan
  | .infinity leftNegative, .infinity rightNegative =>
      if leftNegative = rightNegative then .infinity leftNegative else .nan
  | .infinity negative, _ => .infinity negative
  | _, .infinity negative => .infinity negative
  | .negativeZero, .negativeZero => .negativeZero
  | _, _ =>
      match left.toRat?, right.toRat? with
      | some leftValue, some rightValue => ofRat false (leftValue + rightValue)
      | _, _ => .nan

def sub (left right : Number) : Number :=
  add left (neg right)

def mul (left right : Number) : Number :=
  let negative := xor left.isNegative right.isNegative
  match left, right with
  | .nan, _ => .nan
  | _, .nan => .nan
  | .infinity _, _ => if right.toRat? = some 0 then .nan else .infinity negative
  | _, .infinity _ => if left.toRat? = some 0 then .nan else .infinity negative
  | _, _ =>
      match left.toRat?, right.toRat? with
      | some leftValue, some rightValue => ofRat negative (leftValue * rightValue)
      | _, _ => .nan

def div (left right : Number) : Number :=
  let negative := xor left.isNegative right.isNegative
  match left, right with
  | .nan, _ => .nan
  | _, .nan => .nan
  | .infinity _, .infinity _ => .nan
  | .infinity _, _ => .infinity negative
  | _, .infinity _ => if negative then .negativeZero else zero
  | _, _ =>
      match left.toRat?, right.toRat? with
      | some leftValue, some rightValue =>
          if rightValue = 0 then
            if leftValue = 0 then .nan else .infinity negative
          else
            ofRat negative (leftValue / rightValue)
      | _, _ => .nan

def truncate (value : ℚ) : Int :=
  if value < 0 then -(-value).floor else value.floor

/-- `left % right`: the remainder has the sign of the dividend. -/
def rem (left right : Number) : Number :=
  match left, right with
  | .nan, _ => .nan
  | _, .nan => .nan
  | .infinity _, _ => .nan
  | _, .infinity _ => left
  | _, _ =>
      match left.toRat?, right.toRat? with
      | some leftValue, some rightValue =>
          if rightValue = 0 then .nan
          else ofRat left.isNegative (leftValue - rightValue * truncate (leftValue / rightValue))
      | _, _ => .nan

/-- `Math.trunc(number)`. -/
def trunc (number : Number) : Number :=
  match number with
  | .finite value => ofRat number.isNegative (truncate value.val)
  | _ => number

/-- `Math.floor(number)`. -/
def floor (number : Number) : Number :=
  match number with
  | .finite value => ofRat number.isNegative value.val.floor
  | _ => number

/-- `Math.min(left, right)`: NaN if either is, and negative zero below zero. -/
def mathMin (left right : Number) : Number :=
  if left.isNaN || right.isNaN then .nan
  else if right.less left || right == .negativeZero && !left.less right then right
  else left

/-- `Math.max(left, right)`. -/
def mathMax (left right : Number) : Number :=
  if left.isNaN || right.isNaN then .nan
  else if left.less right || left == .negativeZero && !right.less left then right
  else left

/-- The number with a given binary64 encoding. -/
def ofBits (bits : Nat) : Number :=
  let negative := decide (2 ^ 63 ≤ bits % 2 ^ 64)
  let exponent : Nat := bits / 2 ^ 52 % 2 ^ 11
  let fraction : Nat := bits % 2 ^ 52
  if exponent = 2047 then
    if fraction = 0 then .infinity negative else .nan
  else
    let magnitude : ℚ :=
      if exponent = 0 then fraction * pow2 (-1074)
      else ((2 ^ 52 + fraction : Nat) : ℚ) * pow2 ((exponent : Int) - 1075)
    ofRat negative (if negative then -magnitude else magnitude)

/-! ## Decimal text -/

def digit (value : Nat) : CodeUnit :=
  UInt16.ofNat (48 + value % 10)

/-- The decimal digits of a natural number. -/
def decimal (value : Nat) : Text :=
  text (toString value)

theorem decimal_injective (left right : Nat) (same : decimal left = decimal right) :
    left = right := by
  have scalars : (toString left).toList = (toString right).toList := by
    simpa [decimal, text] using congrArg toScalars same
  have digits : Nat.toDigits 10 left = Nat.toDigits 10 right := by
    simpa [Nat.toList_repr] using scalars
  have values := congrArg (fun digits => Nat.ofDigitChars 10 digits 0) digits
  simpa using values

theorem mem_decimal (value : Nat) (unit : CodeUnit) (member : unit ∈ decimal value) :
    48 ≤ unit.toNat ∧ unit.toNat ≤ 57 := by
  have expanded : decimal value = (Nat.toDigits 10 value).flatMap unitsOf := by
    simp [decimal, text, ofScalars, Nat.toList_repr]
  rw [expanded] at member
  obtain ⟨scalar, scalarMem, unitMem⟩ := List.mem_flatMap.mp member
  have isDigit := Nat.isDigit_of_mem_toDigits (by decide) (by decide) scalarMem
  have range : 48 ≤ scalar.toNat ∧ scalar.toNat ≤ 57 := by
    simpa [Char.isDigit, UInt32.le_iff_toNat_le] using isDigit
  have basic : scalar.toNat < 0x10000 := by omega
  rw [unitsOf, if_pos basic, List.mem_singleton] at unitMem
  subst unitMem
  rw [UInt16.toNat_ofNat', Nat.mod_eq_of_lt (by omega)]
  exact range

def decimalInt (value : Int) : Text :=
  if value < 0 then text "-" ++ decimal value.natAbs else decimal value.natAbs

def pow10 (exponent : Int) : ℚ :=
  match exponent with
  | .ofNat power => ((10 ^ power : Nat) : ℚ)
  | .negSucc power => mkRat 1 (10 ^ (power + 1))

/-- The `exponent` with `10 ^ (exponent - 1) ≤ value < 10 ^ exponent`, for a
positive `value`. -/
def decimalExponent (value : ℚ) : Int :=
  let estimate : Int :=
    ((decimal value.num.natAbs).length : Int) - ((decimal value.den).length : Int)
  if pow10 estimate ≤ value then estimate + 1 else estimate

/-- The decimal of about `count` digits, as its digits and the power of ten of the
last one, that rounds to a positive `value`, when there is one. -/
def digitsAt? (value : ℚ) (count : Nat) : Option (Nat × Int) :=
  let power := decimalExponent value - count
  let unit := pow10 power
  let below := (value / unit).floor.toNat
  let fits (candidate : Nat) : Bool := decide (roundSignificand (candidate * unit) = value)
  if fits below && fits (below + 1) then
    if value - below * unit ≤ (below + 1) * unit - value then some (below, power)
    else some (below + 1, power)
  else if fits below then some (below, power)
  else if fits (below + 1) then some (below + 1, power)
  else none

/-- The fewest digits that read back as a positive `value`, with the position of the
decimal point after the first of them. -/
def shortestDigits (value : ℚ) : Text × Int :=
  match (List.range 17).findSome? fun index => digitsAt? value (index + 1) with
  | some (digits, power) =>
      let written := decimal digits
      ((written.reverse.dropWhile (· == digit 0)).reverse, power + written.length)
  | none => ([], 0)

def positiveToText (value : ℚ) : Text :=
  let (digits, point) := shortestDigits value
  let zeros (count : Int) : Text := List.replicate count.toNat (digit 0)
  if digits.length ≤ point ∧ point ≤ 21 then digits ++ zeros (point - digits.length)
  else if 0 < point ∧ point ≤ 21 then
    digits.take point.toNat ++ text "." ++ digits.drop point.toNat
  else if -6 < point ∧ point ≤ 0 then text "0." ++ zeros (-point) ++ digits
  else
    let fraction := if digits.length = 1 then [] else text "." ++ digits.drop 1
    let sign := if point - 1 < 0 then text "-" else text "+"
    digits.take 1 ++ fraction ++ text "e" ++ sign ++ decimal (point - 1).natAbs

/-- `String(number)`. -/
def toText (number : Number) : Text :=
  match number with
  | .nan => text "NaN"
  | .infinity negative => if negative then text "-Infinity" else text "Infinity"
  | .negativeZero => text "0"
  | .finite value =>
      if number.isSafeInteger then decimalInt value.val.num
      else if value.val < 0 then text "-" ++ positiveToText (-value.val)
      else positiveToText value.val

/-! ## Reading numbers -/

def digitValue? (unit : CodeUnit) : Option Nat :=
  if 48 ≤ unit.toNat ∧ unit.toNat ≤ 57 then some (unit.toNat - 48) else none

def isDigit (unit : CodeUnit) : Bool :=
  (digitValue? unit).isSome

/-- The value of a run of decimal digits. -/
def natOfDigits (digits : Text) : Nat :=
  digits.foldl (fun value unit => value * 10 + (unit.toNat - 48)) 0

private theorem natOfDigits_decimal_go (digits : List Char)
    (each : ∀ scalar ∈ digits, scalar.isDigit = true) (value : Nat) :
    (digits.flatMap unitsOf).foldl (fun value unit => value * 10 + (unit.toNat - 48)) value =
      Nat.ofDigitChars 10 digits value := by
  induction digits generalizing value with
  | nil => rfl
  | cons scalar rest ih =>
      have range : 48 ≤ scalar.toNat ∧ scalar.toNat ≤ 57 := by
        simpa [Char.isDigit, UInt32.le_iff_toNat_le] using each scalar List.mem_cons_self
      have unit : (UInt16.ofNat scalar.toNat).toNat = scalar.toNat := by
        rw [UInt16.toNat_ofNat', Nat.mod_eq_of_lt (by omega)]
      rw [List.flatMap_cons, unitsOf, if_pos (by omega), List.singleton_append, List.foldl_cons, unit,
        ih fun other member => each other (List.mem_cons_of_mem _ member), Nat.ofDigitChars_cons,
        Nat.mul_comm]
      rfl

theorem natOfDigits_decimal (value : Nat) : natOfDigits (decimal value) = value := by
  have expanded : decimal value = (Nat.toDigits 10 value).flatMap unitsOf := by
    simp [decimal, text, ofScalars, Nat.toList_repr]
  have digits : ∀ scalar ∈ Nat.toDigits 10 value, scalar.isDigit = true := fun scalar member =>
    Nat.isDigit_of_mem_toDigits (by decide) (by decide) member
  rw [natOfDigits, expanded, natOfDigits_decimal_go _ digits]
  simp

/-- The number a decimal literal denotes. -/
def ofDecimal (negative : Bool) (whole fraction : Text) (exponent : Int) : Number :=
  let magnitude := natOfDigits (whole ++ fraction) * pow10 (exponent - fraction.length)
  ofRat negative (if negative then -magnitude else magnitude)

def isWhiteSpace (unit : CodeUnit) : Bool :=
  let code := unit.toNat
  decide ((9 ≤ code ∧ code ≤ 13) ∨ code = 0x20 ∨ code = 0xa0 ∨ code = 0x1680 ∨
    (0x2000 ≤ code ∧ code ≤ 0x200a) ∨ code = 0x2028 ∨ code = 0x2029 ∨ code = 0x202f ∨
    code = 0x205f ∨ code = 0x3000 ∨ code = 0xfeff)

def trimText (string : Text) : Text :=
  ((string.dropWhile isWhiteSpace).reverse.dropWhile isWhiteSpace).reverse

/-- The value of `digits` in `base`, when all of them are digits of it. -/
def ofBase? (base : Nat) (digits : Text) : Option Nat :=
  let value? (unit : CodeUnit) : Option Nat :=
    let code := unit.toNat
    if 48 ≤ code ∧ code ≤ 57 then some (code - 48)
    else if 97 ≤ code ∧ code ≤ 122 then some (code - 87)
    else if 65 ≤ code ∧ code ≤ 90 then some (code - 55)
    else none
  if digits.isEmpty then none
  else digits.foldlM (fun value unit => do
    let digit ← value? unit
    if digit < base then some (value * base + digit) else none) 0

/-- The digits after a `0x`, `0o` or `0b` marker, with their base. -/
def nonDecimal? (string : Text) : Option (Nat × Text) :=
  match string with
  | 48 :: marker :: digits =>
      if marker = 120 ∨ marker = 88 then some (16, digits)
      else if marker = 111 ∨ marker = 79 then some (8, digits)
      else if marker = 98 ∨ marker = 66 then some (2, digits)
      else none
  | _ => none

/-- A sign in front of a numeral. -/
def takeSign (string : Text) : Bool × Text :=
  match string with
  | 45 :: rest => (true, rest)
  | 43 :: rest => (false, rest)
  | _ => (false, string)

/-- The exponent part of a decimal literal; the empty text is an absent one. -/
def exponentPart? (string : Text) : Option Int :=
  match string with
  | [] => some 0
  | marker :: rest =>
      let (negative, digits) := takeSign rest
      if (marker = 101 ∨ marker = 69) ∧ digits ≠ [] ∧ digits.all isDigit then
        some (if negative then -(natOfDigits digits : Int) else natOfDigits digits)
      else none

/-- `Number(string)`. -/
def ofText (string : Text) : Number :=
  let trimmed := trimText string
  match nonDecimal? trimmed with
  | some (base, digits) =>
      match ofBase? base digits with
      | some value => ofNat value
      | none => .nan
  | none =>
      let (negative, unsigned) := takeSign trimmed
      if trimmed = [] then zero
      else if unsigned = text "Infinity" then .infinity negative
      else
        let whole := unsigned.takeWhile isDigit
        let rest := unsigned.dropWhile isDigit
        let (fraction, rest) :=
          match rest with
          | 46 :: rest => (rest.takeWhile isDigit, rest.dropWhile isDigit)
          | _ => ([], rest)
        match exponentPart? rest with
        | some exponent =>
            if whole = [] ∧ fraction = [] then .nan else ofDecimal negative whole fraction exponent
        | none => .nan

/-- `BigInt(string)`; `none` is the `SyntaxError`. -/
def bigIntOfText? (string : Text) : Option Int :=
  let trimmed := trimText string
  match nonDecimal? trimmed with
  | some (base, digits) => (ofBase? base digits).map Int.ofNat
  | none =>
      let (negative, digits) := takeSign trimmed
      if trimmed = [] then some 0
      else if digits = [] then none
      else if digits.all isDigit then
        some (if negative then -(natOfDigits digits : Int) else natOfDigits digits)
      else none

end Number

end VgiWorker.Js

/-! ## Order -/

namespace VgiWorker.Js.Number

/-- The place of a number: negative infinity, the finite values, positive infinity, NaN. -/
def rank : Number → Nat ×ₗ ℚ
  | .infinity true => toLex (0, 0)
  | .negativeZero => toLex (1, 0)
  | .finite value => toLex (1, value.val)
  | .infinity false => toLex (2, 0)
  | .nan => toLex (3, 0)

theorem rank_lt (leftKind rightKind : Nat) (leftValue rightValue : ℚ) :
    toLex (leftKind, leftValue) < toLex (rightKind, rightValue) ↔
      leftKind < rightKind ∨ leftKind = rightKind ∧ leftValue < rightValue :=
  Prod.Lex.toLex_lt_toLex

/-- `===`, with NaN equal to itself. -/
theorem same_iff_rank (left right : Number) :
    (left.strictEq right || (left.isNaN && right.isNaN)) = true ↔ rank left = rank right := by
  cases left with
  | infinity leftNegative =>
      cases right with
      | infinity rightNegative =>
          cases leftNegative <;> cases rightNegative <;> simp [strictEq, isNaN, rank]
      | _ => cases leftNegative <;> simp [strictEq, toRat?, isNaN, rank]
  | _ =>
      cases right with
      | infinity rightNegative => cases rightNegative <;> simp [strictEq, toRat?, isNaN, rank]
      | _ => simp [strictEq, toRat?, isNaN, rank]

/-- `<`, which is false on NaN. -/
theorem less_iff_rank (left right : Number) :
    left.less right = true ↔ rank left < rank right ∧ right.isNaN = false := by
  cases left with
  | infinity leftNegative =>
      cases right with
      | infinity rightNegative =>
          cases leftNegative <;> cases rightNegative <;> simp [less, isNaN, rank, rank_lt]
      | _ => cases leftNegative <;> simp [less, isNaN, rank, rank_lt]
  | _ =>
      cases right with
      | infinity rightNegative => cases rightNegative <;> simp [less, isNaN, rank, rank_lt]
      | _ => simp [less, toRat?, isNaN, rank, rank_lt]

theorem eq_nan_of_isNaN (number : Number) (isNan : number.isNaN = true) : number = .nan := by
  cases number with
  | nan => rfl
  | _ => cases isNan

theorem rank_lt_nan (number : Number) (notNan : number.isNaN = false) :
    rank number < rank .nan := by
  cases number with
  | nan => cases notNan
  | infinity negative => cases negative <;> simp [rank, rank_lt]
  | _ => simp [rank, rank_lt]

end VgiWorker.Js.Number
