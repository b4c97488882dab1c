import VgiWorker.FilterPushdown.Evaluate
import VgiWorker.Js.NumberArithmetic
import VgiWorker.Data.Result

/-!
# Arithmetic on numbers and bigints

An integer operand arrives as a bigint or, where the format has it, as a number: when
the operators give one result for both.
-/

set_option autoImplicit false

namespace VgiWorker.FilterPushdown

open VgiWorker.Js VgiWorker.Arrow

def Represents (value : Value) (integer : Int) : Prop :=
  value = .bigint integer ∨ ∃ number, value = .number number ∧ number.toInt? = some integer

/-- What an evaluation means: an integer is the same in either representation. -/
inductive Meaning where
  | fault (fault : Fault)
  | integer (value : Int)
  | other (value : Value)

def meaningOf : Except Fault Value → Meaning
  | .error fault => .fault fault
  | .ok (.bigint value) => .integer value
  | .ok (.number number) =>
      match number.toInt? with
      | some value => .integer value
      | none => .other (.number number)
  | .ok value => .other value

section

variable (context : EvaluationContext)

/-- On some row the expression gives the integer. -/
def YieldsInteger (batch : Batch) (row : Nat) (expression : FilterExpression) (integer : Int) :
    Prop :=
  ∃ value, evaluateExpression batch row context expression = .ok value ∧ Represents value integer

/-- The operator gives one result for the operands, from any expressions and rows that give them. -/
def RepresentationIndependent (op : ArithmeticOp) (left right : Int) : Prop :=
  ∀ (batch batch' : Batch) (row row' : Nat) (first second first' second' : FilterExpression),
    YieldsInteger context batch row first left → YieldsInteger context batch row second right →
    YieldsInteger context batch' row' first' left →
    YieldsInteger context batch' row' second' right →
    meaningOf (evaluateExpression batch row context (.arithmetic op first second)) =
      meaningOf (evaluateExpression batch' row' context (.arithmetic op first' second'))

/-- Both operands round to finite numbers and the operator on these rounds to the integer. -/
def RoundsTo (operator : ℚ → ℚ → ℚ) (left right result : Int) : Prop :=
  ∃ x y : ℚ, nearest left = some x ∧ nearest right = some y ∧ nearest (operator x y) = some result

/-- The same, where a divisor that overflows leaves a known result. -/
def RoundsToOver (operator : ℚ → ℚ → ℚ) (beyond : ℚ → ℚ) (left right result : Int) : Prop :=
  ∃ x : ℚ, nearest left = some x ∧
    (nearest right = none ∧ beyond x = result ∨
      ∃ y, nearest right = some y ∧ nearest (operator x y) = some result)

/-- The integer result of the operator is exact on numbers. A division by zero fails for both. -/
def ExactOnNumbers (op : ArithmeticOp) (left right : Int) : Prop :=
  match op with
  | .add => RoundsTo (· + ·) left right (left + right)
  | .subtract => RoundsTo (· - ·) left right (left - right)
  | .multiply => RoundsTo (· * ·) left right (left * right)
  | .divide =>
      if right = 0 then context.ieeeFloatingPointOps = some false
      else context.integerDivision = some true →
        RoundsToOver (· / ·) (fun _ => 0) left right (left.tdiv right)
  | .modulo =>
      if right = 0 then context.ieeeFloatingPointOps = some false
      else RoundsToOver (fun x y => x - y * Number.truncate (x / y)) id left right (left.tmod right)

/-- The integer is a value of the format, so that a number can hold it. -/
def HasNumber (integer : Int) : Prop :=
  nearest integer = some (integer : ℚ)

end

/-! ## Operands as numbers -/

private theorem represents_toRat? (value : Value) (integer : Int)
    (represents : Represents value integer) : value.toNumber.toRat? = nearest integer := by
  rcases represents with rfl | ⟨number, rfl, integral⟩
  · exact Number.toRat?_ofInt_eq integer
  · exact ((Number.toInt?_eq_some number integer).mp integral).trans
      (Number.nearest_of_toInt? number integer integral).symm

private theorem represents_ne_nan (value : Value) (integer : Int)
    (represents : Represents value integer) : value.toNumber ≠ .nan := by
  rcases represents with rfl | ⟨number, rfl, integral⟩
  · exact Number.ofInt_ne_nan integer
  · rintro isNan
    have isNan : number = .nan := isNan
    rw [isNan] at integral
    cases integral

private theorem represents_eq (value : Value) (integer : Int)
    (represents : Represents value integer) (nonzero : integer ≠ 0) :
    value.toNumber = Number.ofInt integer := by
  rcases represents with rfl | ⟨number, rfl, integral⟩
  · rfl
  · exact Number.eq_ofInt number integer integral nonzero

private theorem represents_numeric (value : Value) (integer : Int)
    (represents : Represents value integer) :
    isNullValue value = false ∧ isNumeric value = true := by
  rcases represents with rfl | ⟨number, rfl, _⟩
  · exact ⟨rfl, rfl⟩
  · exact ⟨rfl, rfl⟩

private theorem represents_strictEq_zero (value : Value) (integer : Int)
    (represents : Represents value integer) :
    value.toNumber.strictEq .zero = decide (integer = 0) := by
  have rational := represents_toRat? value integer represents
  cases isNearest : nearest integer with
  | none =>
      have nonzero : integer ≠ 0 := by
        rintro rfl
        cases Number.nearest_zero.symm.trans isNearest
      rw [isNearest] at rational
      rw [decide_eq_false nonzero]
      cases held : value.toNumber with
      | nan => rfl
      | infinity negative => rfl
      | negativeZero => rw [held] at rational; cases rational
      | finite found => rw [held] at rational; cases rational
  | some x =>
      rw [isNearest] at rational
      rw [Number.strictEq_eq _ _ x 0 rational rfl]
      refine decide_eq_decide.mpr ⟨?_, ?_⟩
      · rintro rfl
        exact Number.nearest_eq_zero integer isNearest
      · rintro rfl
        exact Option.some.inj (isNearest.symm.trans Number.nearest_zero)

/-! ## The operator on numbers -/

private def numberBinary (op : ArithmeticOp) (left right : Number) : Number :=
  match op with
  | .add => left.add right
  | .subtract => left.sub right
  | .multiply => left.mul right
  | .divide => left.div right
  | .modulo => left.rem right

private def Divides (op : ArithmeticOp) : Prop :=
  op = .divide ∨ op = .modulo

/-- With an operand that is a number the operator is the one on numbers. -/
private theorem numericBinary_mixed (op : ArithmeticOp) (left right : Int) (first second : Value)
    (context : EvaluationContext) (isLeft : Represents first left)
    (isRight : Represents second right)
    (mixed : (∃ number, first = .number number) ∨ ∃ number, second = .number number) :
    numericBinary op first second context =
      if (op = .divide ∨ op = .modulo) ∧ right = 0 ∧ context.ieeeFloatingPointOps = some false then
        throwV2 (text "division by zero")
      else .ok (.number (numberBinary op first.toNumber second.toNumber)) := by
  obtain ⟨present, numeric⟩ := represents_numeric first left isLeft
  obtain ⟨present', numeric'⟩ := represents_numeric second right isRight
  have zero := represents_strictEq_zero second right isRight
  unfold numericBinary
  simp only [present, present', numeric, numeric', Bool.or_self, Bool.false_eq_true, if_false,
    Bool.not_true]
  split
  · rcases mixed with ⟨_, same⟩ | ⟨_, same⟩ <;> cases same
  · simp only [zero, decide_eq_true_eq]
    cases op <;> rfl

/-- The integer of an operator, by truncation for a quotient. -/
private def integerBinary (op : ArithmeticOp) (left right : Int) : Int :=
  match op with
  | .add => left + right
  | .subtract => left - right
  | .multiply => left * right
  | .divide => left.tdiv right
  | .modulo => left.tmod right

private theorem roundsTo_iff (operator : ℚ → ℚ → ℚ) (binary : Number → Number → Number)
    (finite : ∀ left right x y, left.toRat? = some x → right.toRat? = some y →
      (binary left right).toRat? = nearest (operator x y))
    (infinite : ∀ left right, left.toRat? = none ∨ right.toRat? = none →
      (binary left right).toRat? = none)
    (left right result : Int) (first second : Number) (isFirst : first.toRat? = nearest left)
    (isSecond : second.toRat? = nearest right) :
    (binary first second).toInt? = some result ↔ RoundsTo operator left right result := by
  rw [Number.toInt?_eq_some, RoundsTo, ← isFirst, ← isSecond]
  constructor
  · intro rational
    cases heldFirst : first.toRat? with
    | none =>
        rw [infinite first second (.inl heldFirst)] at rational
        cases rational
    | some x =>
        cases heldSecond : second.toRat? with
        | none =>
            rw [infinite first second (.inr heldSecond)] at rational
            cases rational
        | some y =>
            exact ⟨x, y, rfl, rfl, (finite _ _ x y heldFirst heldSecond).symm.trans rational⟩
  · rintro ⟨x, y, heldFirst, heldSecond, rounds⟩
    exact (finite _ _ x y heldFirst heldSecond).trans rounds

private theorem roundsToOver_iff (operator : ℚ → ℚ → ℚ) (beyond : ℚ → ℚ)
    (binary : Number → Number → Number)
    (finite : ∀ left right x y, left.toRat? = some x → right.toRat? = some y → y ≠ 0 →
      (binary left right).toRat? = nearest (operator x y))
    (beyond_ : ∀ left x negative, left.toRat? = some x →
      (binary left (.infinity negative)).toRat? = some (beyond x))
    (infinite : ∀ left right, left.toRat? = none → (binary left right).toRat? = none)
    (left right result : Int) (nonzero : right ≠ 0) (first second : Number)
    (isFirst : first.toRat? = nearest left) (isSecond : second.toRat? = nearest right)
    (notNan : second ≠ .nan) :
    (binary first second).toInt? = some result ↔
      RoundsToOver operator beyond left right result := by
  rw [Number.toInt?_eq_some, RoundsToOver, ← isFirst]
  cases heldFirst : first.toRat? with
  | none =>
      rw [infinite first second heldFirst]
      exact ⟨nofun, fun ⟨_, held, _⟩ => nomatch held⟩
  | some x =>
      simp only [Option.some.injEq, exists_eq_left']
      cases heldSecond : nearest right with
      | none =>
          rw [heldSecond] at isSecond
          cases second with
          | nan => exact absurd rfl notNan
          | infinity negative =>
              rw [beyond_ first x negative heldFirst]
              simp
          | negativeZero => cases isSecond
          | finite held => cases isSecond
      | some y =>
          rw [heldSecond] at isSecond
          have yNonzero : y ≠ 0 := by
            rintro rfl
            exact nonzero (Number.nearest_eq_zero right heldSecond)
          rw [finite first second x y heldFirst isSecond yNonzero]
          simp

/-- The number result is the integer exactly when the operator is exact on numbers. -/
private theorem numberBinary_exact_iff (op : ArithmeticOp) (left right : Int)
    (context : EvaluationContext) (first second : Value) (isLeft : Represents first left)
    (isRight : Represents second right) (nonzero : Divides op → right ≠ 0)
    (integral : op = .divide → context.integerDivision = some true) :
    (numberBinary op first.toNumber second.toNumber).toInt? =
        some (integerBinary op left right) ↔
      ExactOnNumbers context op left right := by
  have isFirst := represents_toRat? first left isLeft
  have isSecond := represents_toRat? second right isRight
  have notNan := represents_ne_nan second right isRight
  cases op with
  | add =>
      exact roundsTo_iff _ Number.add Number.toRat?_add_eq Number.toRat?_add_none left right _ _ _
        isFirst isSecond
  | subtract =>
      exact roundsTo_iff _ Number.sub Number.toRat?_sub_eq Number.toRat?_sub_none left right _ _ _
        isFirst isSecond
  | multiply =>
      exact roundsTo_iff _ Number.mul Number.toRat?_mul_eq Number.toRat?_mul_none left right _ _ _
        isFirst isSecond
  | divide =>
      have rightNonzero := nonzero (.inl rfl)
      rw [ExactOnNumbers, if_neg rightNonzero, forall_prop_of_true (integral rfl)]
      exact roundsToOver_iff _ _ Number.div Number.toRat?_div_eq
        (fun first x negative held => Number.toRat?_div_infinity first x held negative)
        Number.toRat?_div_left_none left right _ rightNonzero _ _ isFirst isSecond notNan
  | modulo =>
      have rightNonzero := nonzero (.inr rfl)
      rw [ExactOnNumbers, if_neg rightNonzero]
      exact roundsToOver_iff _ _ Number.rem Number.toRat?_rem_eq
        (fun first x negative held => Number.toRat?_rem_infinity first x held negative)
        Number.toRat?_rem_left_none left right _ rightNonzero _ _ isFirst isSecond notNan

/-! ## Agreement with the bigints -/

private theorem meaningOf_number (number : Number) (integer : Int) :
    meaningOf (.ok (.number number)) = .integer integer ↔ number.toInt? = some integer := by
  rw [meaningOf]
  cases number.toInt? with
  | none => exact ⟨nofun, nofun⟩
  | some held => simp

private theorem numericBinary_bigints (op : ArithmeticOp) (left right : Int)
    (context : EvaluationContext) :
    numericBinary op (.bigint left) (.bigint right) context = bigintBinary op left right context :=
  rfl

/-- A quotient that is not truncated is the one of numbers in either representation. -/
private theorem quotient_agrees (left right : Int) (first second : Value)
    (isLeft : Represents first left) (isRight : Represents second right) (nonzero : right ≠ 0) :
    meaningOf (.ok (.number (first.toNumber.div second.toNumber))) =
      meaningOf (.ok (.number ((Number.ofInt left).div (.ofInt right)))) := by
  rw [represents_eq second right isRight nonzero]
  by_cases zero : left = 0
  · subst zero
    have rounds : RoundsToOver (· / ·) (fun _ => 0) 0 right 0 := by
      refine ⟨0, Number.nearest_zero, ?_⟩
      cases isNearest : nearest right with
      | none => exact .inl ⟨rfl, rfl⟩
      | some y => exact .inr ⟨y, rfl, by simpa using Number.nearest_zero⟩
    have isZero (number : Number) (isNumber : number.toRat? = nearest ((0 : Int) : ℚ)) :
        meaningOf (.ok (.number (number.div (.ofInt right)))) = .integer 0 :=
      (meaningOf_number _ 0).mpr ((roundsToOver_iff _ _ Number.div Number.toRat?_div_eq
        (fun first x negative held => Number.toRat?_div_infinity first x held negative)
        Number.toRat?_div_left_none 0 right 0 nonzero _ _ isNumber (Number.toRat?_ofInt_eq right)
        (Number.ofInt_ne_nan right)).mpr rounds)
    rw [isZero _ (represents_toRat? first 0 isLeft), isZero _ (Number.toRat?_ofInt_eq 0)]
  · rw [represents_eq first left isLeft zero]

private theorem mixed_agrees_iff (op : ArithmeticOp) (left right : Int) (first second : Value)
    (context : EvaluationContext) (isLeft : Represents first left)
    (isRight : Represents second right)
    (mixed : (∃ number, first = .number number) ∨ ∃ number, second = .number number) :
    meaningOf (numericBinary op first second context) =
        meaningOf (numericBinary op (.bigint left) (.bigint right) context) ↔
      ExactOnNumbers context op left right := by
  rw [numericBinary_mixed op left right first second context isLeft isRight mixed,
    numericBinary_bigints]
  by_cases byZero : Divides op ∧ right = 0
  · obtain ⟨divides, rfl⟩ := byZero
    have fails : bigintBinary op left 0 context = throwV2 (text "division by zero") :=
      if_pos ⟨divides, rfl⟩
    have exact : ExactOnNumbers context op left 0 ↔ context.ieeeFloatingPointOps = some false := by
      rcases divides with rfl | rfl
      · simp [ExactOnNumbers]
      · simp [ExactOnNumbers]
    rw [fails, exact]
    by_cases strict : context.ieeeFloatingPointOps = some false
    · rw [if_pos ⟨divides, rfl, strict⟩]
      exact iff_of_true rfl strict
    · rw [if_neg fun given => strict given.2.2]
      refine iff_of_false (fun same => ?_) strict
      rw [throwV2, meaningOf, meaningOf] at same
      split at same <;> cases same
  · have nonzero : Divides op → right ≠ 0 := fun divides zero => byZero ⟨divides, zero⟩
    rw [if_neg fun given => byZero ⟨given.1, given.2.1⟩]
    unfold bigintBinary
    rw [if_neg fun given => byZero ⟨given.1, given.2⟩]
    have integral (truncates : op = .divide → context.integerDivision = some true) :=
      numberBinary_exact_iff op left right context first second isLeft isRight nonzero truncates
    cases op with
    | add | subtract | multiply | modulo => exact (meaningOf_number _ _).trans (integral nofun)
    | divide =>
        dsimp only
        split
        · rename_i truncates
          exact (meaningOf_number _ _).trans (integral fun _ => truncates)
        · rename_i exact
          refine iff_of_true (quotient_agrees left right first second isLeft isRight
            (nonzero (.inl rfl))) ?_
          rw [ExactOnNumbers, if_neg (nonzero (.inl rfl))]
          exact fun truncates => absurd truncates exact

private theorem represents_cases (value : Value) (integer : Int)
    (represents : Represents value integer) :
    value = .bigint integer ∨ (∃ number, value = .number number) ∧ HasNumber integer := by
  rcases represents with rfl | ⟨number, rfl, integral⟩
  · exact .inl rfl
  · exact .inr ⟨⟨number, rfl⟩, Number.nearest_of_toInt? number integer integral⟩

private theorem hasNumber_represents (integer : Int) (hasNumber : HasNumber integer) :
    Represents (.number (.ofInt integer)) integer :=
  .inr ⟨_, rfl, (Number.toInt?_eq_some _ _).mpr ((Number.toRat?_ofInt_eq integer).trans hasNumber)⟩

private theorem evaluate_arithmetic (context : EvaluationContext) (batch : Batch) (row : Nat)
    (op : ArithmeticOp) (first second : FilterExpression) (left right : Value)
    (isLeft : evaluateExpression batch row context first = .ok left)
    (isRight : evaluateExpression batch row context second = .ok right) :
    evaluateExpression batch row context (.arithmetic op first second) =
      numericBinary op left right context := by
  rw [evaluateExpression, isLeft, except_ok_bind, isRight, except_ok_bind]

/-- Each operator gives the integer result in every representation of its operands exactly when no
operand has a number or the operator is exact on numbers; a negation always does, and a null operand
gives null. -/
theorem arithmetic_representation_iff (context : EvaluationContext) :
    (∀ op left right, RepresentationIndependent context op left right ↔
      ¬ HasNumber left ∧ ¬ HasNumber right ∨ ExactOnNumbers context op left right) ∧
    (∀ batch row expression integer, YieldsInteger context batch row expression integer →
      meaningOf (evaluateExpression batch row context (.negate expression)) =
        .integer (-integer)) ∧
    (∀ batch row op left right (value other : Value),
      evaluateExpression batch row context left = .ok value →
      evaluateExpression batch row context right = .ok other → value = .null ∨ other = .null →
      evaluateExpression batch row context (.arithmetic op left right) = .ok .null) := by
  refine ⟨fun op left right => ⟨fun independent => ?_, fun condition => ?_⟩, ?_, ?_⟩
  · by_contra neither
    rw [not_or, not_and_or, not_not, not_not] at neither
    obtain ⟨hasNumber, inexact⟩ := neither
    have agrees (first second : Value) (isLeft : Represents first left)
        (isRight : Represents second right) :
        meaningOf (numericBinary op first second context) =
          meaningOf (numericBinary op (.bigint left) (.bigint right) context) :=
      independent ⟨⟨[], .empty⟩, [], 0, none⟩ ⟨⟨[], .empty⟩, [], 0, none⟩ 0 0
        (.literal 0 ⟨[], .null, true, .empty⟩ first) (.literal 0 ⟨[], .null, true, .empty⟩ second)
        (.literal 0 ⟨[], .null, true, .empty⟩ (.bigint left))
        (.literal 0 ⟨[], .null, true, .empty⟩ (.bigint right))
        ⟨first, rfl, isLeft⟩ ⟨second, rfl, isRight⟩ ⟨_, rfl, .inl rfl⟩ ⟨_, rfl, .inl rfl⟩
    rcases hasNumber with leftNumber | rightNumber
    · have isLeft := hasNumber_represents left leftNumber
      exact inexact ((mixed_agrees_iff op left right _ (.bigint right) context isLeft (.inl rfl)
        (.inl ⟨_, rfl⟩)).mp (agrees _ _ isLeft (.inl rfl)))
    · have isRight := hasNumber_represents right rightNumber
      exact inexact ((mixed_agrees_iff op left right (.bigint left) _ context (.inl rfl) isRight
        (.inr ⟨_, rfl⟩)).mp (agrees _ _ (.inl rfl) isRight))
  · have agrees (first second : Value) (isLeft : Represents first left)
        (isRight : Represents second right) :
        meaningOf (numericBinary op first second context) =
          meaningOf (numericBinary op (.bigint left) (.bigint right) context) := by
      have exact (hasNumber : HasNumber left ∨ HasNumber right) :
          ExactOnNumbers context op left right :=
        condition.resolve_left fun neither => hasNumber.elim neither.1 neither.2
      rcases represents_cases first left isLeft with rfl | ⟨isNumber, hasNumber⟩
      · rcases represents_cases second right isRight with rfl | ⟨isNumber, hasNumber⟩
        · rfl
        · exact (mixed_agrees_iff op left right _ _ context isLeft isRight (.inr isNumber)).mpr
            (exact (.inr hasNumber))
      · exact (mixed_agrees_iff op left right _ _ context isLeft isRight (.inl isNumber)).mpr
          (exact (.inl hasNumber))
    rintro batch batch' row row' first second first' second' ⟨v, isV, repV⟩ ⟨w, isW, repW⟩
      ⟨v', isV', repV'⟩ ⟨w', isW', repW'⟩
    rw [evaluate_arithmetic context batch row op first second v w isV isW,
      evaluate_arithmetic context batch' row' op first' second' v' w' isV' isW',
      agrees v w repV repW, agrees v' w' repV' repW']
  · rintro batch row expression integer ⟨value, isValue, represents⟩
    rw [evaluateExpression, isValue, except_ok_bind]
    rcases represents with rfl | ⟨number, rfl, integral⟩
    · rfl
    · refine (meaningOf_number _ _).mpr ((Number.toInt?_eq_some _ _).mpr ?_)
      change number.neg.toRat? = _
      rw [Number.toRat?_neg, (Number.toInt?_eq_some number integer).mp integral]
      simp
  · rintro batch row op left right value other isLeft isRight null
    rw [evaluate_arithmetic context batch row op left right value other isLeft isRight]
    unfold numericBinary
    rw [if_pos]
    rcases null with rfl | rfl
    · rfl
    · exact Bool.or_true _

theorem arithmetic_representation_sample :
    RepresentationIndependent { profile := [], integerDivision := some true } .divide 6 3 :=
  ((arithmetic_representation_iff _).1 .divide 6 3).mpr (.inr (by
    rw [ExactOnNumbers, if_neg (by decide)]
    exact fun _ => ⟨6, by decide +kernel, .inr ⟨3, by decide +kernel, by decide +kernel⟩⟩))

/-- The integer division of the context is for bigints only. -/
theorem number_quotient_not_truncated :
    ¬ RepresentationIndependent { profile := [], integerDivision := some true } .divide 7 2 := by
  intro independent
  have isSeven : Represents (.number (.ofInt 7)) 7 := .inr ⟨_, rfl, by decide +kernel⟩
  have isTwo : Represents (.number (.ofInt 2)) 2 := .inr ⟨_, rfl, by decide +kernel⟩
  have same := independent ⟨⟨[], .empty⟩, [], 0, none⟩ ⟨⟨[], .empty⟩, [], 0, none⟩ 0 0
    (.literal 0 ⟨[], .null, true, .empty⟩ (.number (.ofInt 7)))
    (.literal 0 ⟨[], .null, true, .empty⟩ (.number (.ofInt 2)))
    (.literal 0 ⟨[], .null, true, .empty⟩ (.bigint 7))
    (.literal 0 ⟨[], .null, true, .empty⟩ (.bigint 2))
    ⟨_, rfl, isSeven⟩ ⟨_, rfl, isTwo⟩ ⟨_, rfl, .inl rfl⟩ ⟨_, rfl, .inl rfl⟩
  rw [evaluate_arithmetic _ _ _ _ _ _ _ _ rfl rfl, evaluate_arithmetic _ _ _ _ _ _ _ _ rfl rfl,
    numericBinary_mixed .divide 7 2 _ _ _ isSeven isTwo (.inl ⟨_, rfl⟩),
    if_neg (by decide)] at same
  have fractional : ((Number.ofInt 7).div (.ofInt 2)).toInt? = none := by decide +kernel
  have integral : ((Number.ofInt 7).div (.ofInt 2)).toInt? = some 3 :=
    (meaningOf_number _ 3).mp same
  rw [fractional] at integral
  cases integral

end VgiWorker.FilterPushdown
