import VgiWorker.Arguments.ArgumentSpec
import VgiWorker.Js.NumberRounding

/-!
# Advertised ranges

When the bounds that are checked admit the numbers of the interval that is
shown for them.
-/

set_option autoImplicit false

namespace VgiWorker.ArgumentSpecs

open VgiWorker.Js VgiWorker.Arrow

/-! ## Bounds -/

inductive Relation where
  | ge
  | le
  | gt
  | lt

/-- One bound of an argument. -/
structure Bound where
  relation : Relation
  limit : Number

/-- A double or a 64-bit integer as an argument value. -/
inductive Numeric where
  | number (value : Number)
  | bigint (value : Int)

def Numeric.toValue : Numeric → Value
  | .number value => .number value
  | .bigint value => .bigint value

/-- The number that the check compares. -/
def Numeric.narrowed : Numeric → Number
  | .number value => value
  | .bigint value => Number.ofInt value

/-- Where a number stands on the line from negative to positive infinity; NaN stands nowhere. -/
def place (number : Number) : Option (Nat ×ₗ ℚ) :=
  if number.isNaN then none else some number.rank

def Numeric.place : Numeric → Option (Nat ×ₗ ℚ)
  | .number value => ArgumentSpecs.place value
  | .bigint value => some (toLex (1, (value : ℚ)))

def Relation.Holds (relation : Relation) (value limit : Nat ×ₗ ℚ) : Prop :=
  match relation with
  | .ge => limit ≤ value
  | .le => value ≤ limit
  | .gt => limit < value
  | .lt => value < limit

/-- The value lies on the bound's side of the line. -/
def Bound.Admits (bound : Bound) (value : Numeric) : Prop :=
  ∃ stands ∈ value.place, ∃ limit ∈ ArgumentSpecs.place bound.limit,
    bound.relation.Holds stands limit

/-- The check of the bound lets the number pass. -/
def Bound.Passes (bound : Bound) (num : Number) : Prop :=
  match bound.relation with
  | .ge => num.less bound.limit = false
  | .le => bound.limit.less num = false
  | .gt => num.lessEq bound.limit = false
  | .lt => bound.limit.lessEq num = false

/-- The check lets by what the bound does not admit: NaN, and a value from outside that is rounded
onto a limit admitted itself. -/
def Bound.Overlooks (bound : Bound) (value : Numeric) : Prop :=
  value.place = none ∨ ArgumentSpecs.place bound.limit = none ∨
    ∃ stands ∈ value.place, value.narrowed.rank = bound.limit.rank ∧
      match bound.relation with
      | .ge => stands < bound.limit.rank
      | .le => bound.limit.rank < stands
      | .gt | .lt => False

/-- The check refuses what the bound admits: a value from inside that is rounded onto a limit not
admitted itself. -/
def Bound.Overruns (bound : Bound) (value : Numeric) : Prop :=
  ∃ stands ∈ value.place, value.narrowed.rank = bound.limit.rank ∧
    match bound.relation with
    | .gt => bound.limit.rank < stands
    | .lt => stands < bound.limit.rank
    | .ge | .le => False

private theorem place_some (number : Number) (stands : Nat ×ₗ ℚ)
    (placed : place number = some stands) : number.isNaN = false ∧ number.rank = stands := by
  unfold place at placed
  cases isNan : number.isNaN with
  | true => simp [isNan] at placed
  | false => exact ⟨rfl, by simpa [isNan] using placed⟩

private theorem place_none (number : Number) (nowhere : place number = none) : number = .nan := by
  refine Number.eq_nan_of_isNaN number ?_
  unfold place at nowhere
  split at nowhere
  · assumption
  · cases nowhere

private theorem narrowed_notNaN (value : Numeric) (stands : Nat ×ₗ ℚ)
    (placed : value.place = some stands) : value.narrowed.isNaN = false := by
  cases value with
  | number number => exact (place_some number stands placed).1
  | bigint integer =>
      cases isNan : (Number.ofInt integer).isNaN with
      | false => exact isNan
      | true => exact absurd (Number.eq_nan_of_isNaN _ isNan) (Number.ofInt_ne_nan integer)

private theorem narrowed_nan (value : Numeric) (nowhere : value.place = none) :
    value.narrowed = .nan := by
  cases value with
  | number number => exact place_none number nowhere
  | bigint integer => cases nowhere

private theorem finite_side (limit : Number) (held : ℚ) (rational : limit.toRat? = some held)
    (ranked : limit.rank = toLex (1, held)) (integer : Int) :
    (limit.rank ≤ toLex (1, (integer : ℚ)) → limit.rank ≤ (Number.ofInt integer).rank) ∧
      (toLex (1, (integer : ℚ)) ≤ limit.rank → (Number.ofInt integer).rank ≤ limit.rank) := by
  constructor
  · intro below
    rw [ranked, Prod.Lex.toLex_le_toLex] at below
    exact Number.rank_le_ofInt limit held rational integer
      (below.resolve_left (lt_irrefl 1)).2
  · intro above
    rw [ranked, Prod.Lex.toLex_le_toLex] at above
    exact Number.ofInt_rank_le limit held rational integer
      (above.resolve_left (lt_irrefl 1)).2

private theorem rank_bounds (number : Number) (notNan : number.isNaN = false) :
    (Number.infinity true).rank ≤ number.rank ∧ number.rank ≤ (Number.infinity false).rank := by
  cases number with
  | nan => cases notNan
  | infinity negative => cases negative <;> simp [Number.rank, Prod.Lex.toLex_le_toLex]
  | _ => simp [Number.rank, Prod.Lex.toLex_le_toLex]

/-- Narrowing keeps the side of every limit. -/
private theorem narrowed_side (value : Numeric) (stands : Nat ×ₗ ℚ)
    (placed : value.place = some stands) (limit : Number) (notNan : limit.isNaN = false) :
    (limit.rank ≤ stands → limit.rank ≤ value.narrowed.rank) ∧
      (stands ≤ limit.rank → value.narrowed.rank ≤ limit.rank) := by
  have narrowedNumber := narrowed_notNaN value stands placed
  cases value with
  | number number =>
      obtain ⟨_, rfl⟩ := place_some number stands placed
      exact ⟨id, id⟩
  | bigint integer =>
      obtain rfl : toLex (1, (integer : ℚ)) = stands := Option.some.inj placed
      have bounds := rank_bounds _ narrowedNumber
      cases limit with
      | nan => cases notNan
      | negativeZero => exact finite_side .negativeZero 0 rfl rfl integer
      | finite held => exact finite_side (.finite held) held.val rfl rfl integer
      | infinity negative =>
          cases negative with
          | true =>
              refine ⟨fun _ => bounds.1, fun above => ?_⟩
              simp [Number.rank, Prod.Lex.toLex_le_toLex] at above
          | false =>
              refine ⟨fun below => ?_, fun _ => bounds.2⟩
              simp [Number.rank, Prod.Lex.toLex_le_toLex] at below

private theorem lessEq_iff_rank (left right : Number) (leftNumber : left.isNaN = false)
    (rightNumber : right.isNaN = false) : left.lessEq right = true ↔ left.rank ≤ right.rank := by
  have same := Number.same_iff_rank left right
  rw [leftNumber, Bool.false_and, Bool.or_false] at same
  rw [Number.lessEq, Bool.or_eq_true, same, Number.less_iff_rank, le_iff_lt_or_eq]
  simp [rightNumber]

private theorem less_false_iff (left right : Number) (rightNumber : right.isNaN = false) :
    left.less right = false ↔ right.rank ≤ left.rank := by
  rw [← Bool.not_eq_true, Number.less_iff_rank]
  simp [rightNumber]

private theorem lessEq_false_iff (left right : Number) (leftNumber : left.isNaN = false)
    (rightNumber : right.isNaN = false) : left.lessEq right = false ↔ right.rank < left.rank := by
  rw [← Bool.not_eq_true, lessEq_iff_rank left right leftNumber rightNumber, not_le]

/-- The check of numbers other than NaN, as an order of their places. -/
private theorem passes_iff_holds (bound : Bound) (num : Number) (number : num.isNaN = false)
    (limited : bound.limit.isNaN = false) :
    bound.Passes num ↔ bound.relation.Holds num.rank bound.limit.rank := by
  obtain ⟨relation, limit⟩ := bound
  cases relation with
  | ge => exact less_false_iff num limit limited
  | le => exact less_false_iff limit num number
  | gt => exact lessEq_false_iff num limit number limited
  | lt => exact lessEq_false_iff limit num limited number

private theorem nan_compares (number : Number) :
    number.less .nan = false ∧ Number.less .nan number = false ∧
      number.lessEq .nan = false ∧ Number.lessEq .nan number = false := by
  cases number with
  | infinity negative => cases negative <;> exact ⟨rfl, rfl, rfl, rfl⟩
  | _ => exact ⟨rfl, rfl, rfl, rfl⟩

private theorem nan_passes (bound : Bound) (num : Number)
    (isNan : num = .nan ∨ bound.limit = .nan) : bound.Passes num := by
  obtain ⟨relation, limit⟩ := bound
  rcases isNan with rfl | rfl <;> cases relation <;>
    simp [Bound.Passes, nan_compares]

private theorem admits_iff_holds (bound : Bound) (value : Numeric) (stands : Nat ×ₗ ℚ)
    (placed : value.place = some stands) (limited : bound.limit.isNaN = false) :
    bound.Admits value ↔ bound.relation.Holds stands bound.limit.rank := by
  simp [Bound.Admits, placed, place, limited]

private theorem overlooks_numbers (bound : Bound) (value : Numeric) (stands : Nat ×ₗ ℚ)
    (placed : value.place = some stands) (limited : bound.limit.isNaN = false) :
    bound.Overlooks value ↔ value.narrowed.rank = bound.limit.rank ∧
      match bound.relation with
      | .ge => stands < bound.limit.rank
      | .le => bound.limit.rank < stands
      | .gt | .lt => False := by
  simp [Bound.Overlooks, placed, place, limited]

private theorem overruns_numbers (bound : Bound) (value : Numeric) (stands : Nat ×ₗ ℚ)
    (placed : value.place = some stands) :
    bound.Overruns value ↔ value.narrowed.rank = bound.limit.rank ∧
      match bound.relation with
      | .gt => bound.limit.rank < stands
      | .lt => stands < bound.limit.rank
      | .ge | .le => False := by
  simp [Bound.Overruns, placed]

section

variable {Place : Type} [LinearOrder Place] (stands narrowed limit : Place)

private theorem inclusive_rounding (keepsAbove : stands ≤ limit → narrowed ≤ limit) :
    ((narrowed = limit ∧ stands < limit) ↔ ¬limit ≤ stands ∧ limit ≤ narrowed) := by
  constructor
  · rintro ⟨rfl, below⟩
    exact ⟨not_le.mpr below, le_rfl⟩
  · rintro ⟨below, reached⟩
    have below := not_le.mp below
    exact ⟨le_antisymm (keepsAbove below.le) reached, below⟩

private theorem exclusive_rounding (keepsBelow : limit ≤ stands → limit ≤ narrowed) :
    ((narrowed = limit ∧ limit < stands) ↔ limit < stands ∧ ¬limit < narrowed) := by
  constructor
  · rintro ⟨rfl, above⟩
    exact ⟨above, lt_irrefl _⟩
  · rintro ⟨above, stopped⟩
    exact ⟨le_antisymm (not_lt.mp stopped) (keepsBelow above.le), above⟩

end

theorem Bound.overlooks_iff (bound : Bound) (value : Numeric) :
    bound.Overlooks value ↔ ¬bound.Admits value ∧ bound.Passes value.narrowed := by
  cases placed : value.place with
  | none =>
      refine iff_of_true (.inl placed) ⟨?_, nan_passes _ _ (.inl (narrowed_nan value placed))⟩
      rintro ⟨stands, standsHere, _⟩
      simp [placed] at standsHere
  | some stands =>
      have number := narrowed_notNaN value stands placed
      cases limited : bound.limit.isNaN with
      | true =>
          have limitNan := Number.eq_nan_of_isNaN _ limited
          refine iff_of_true (.inr (.inl ?_)) ⟨?_, nan_passes _ _ (.inr limitNan)⟩
          · simp [place, limited]
          · rintro ⟨_, _, limit, limitHere, _⟩
            simp [place, limited] at limitHere
      | false =>
          have keeps := narrowed_side value stands placed bound.limit limited
          rw [overlooks_numbers bound value stands placed limited,
            passes_iff_holds bound _ number limited, admits_iff_holds bound value stands placed limited]
          obtain ⟨relation, limit⟩ := bound
          cases relation with
          | ge => exact inclusive_rounding stands _ _ keeps.2
          | le => exact @inclusive_rounding (Nat ×ₗ ℚ)ᵒᵈ _ stands _ _ keeps.1
          | gt =>
              refine iff_of_false (fun rounded => rounded.2) ?_
              rintro ⟨outside, passes⟩
              exact absurd (keeps.2 (not_lt.mp outside)) (not_le.mpr passes)
          | lt =>
              refine iff_of_false (fun rounded => rounded.2) ?_
              rintro ⟨outside, passes⟩
              exact absurd (keeps.1 (not_lt.mp outside)) (not_le.mpr passes)

theorem Bound.overruns_iff (bound : Bound) (value : Numeric) :
    bound.Overruns value ↔ bound.Admits value ∧ ¬bound.Passes value.narrowed := by
  cases placed : value.place with
  | none =>
      refine iff_of_false ?_ ?_
      · rintro ⟨stands, standsHere, _⟩
        simp [placed] at standsHere
      · rintro ⟨⟨stands, standsHere, _⟩, _⟩
        simp [placed] at standsHere
  | some stands =>
      have number := narrowed_notNaN value stands placed
      rw [overruns_numbers bound value stands placed]
      cases limited : bound.limit.isNaN with
      | true =>
          refine iff_of_false ?_ ?_
          · rintro ⟨same, _⟩
            have limitNan := Number.eq_nan_of_isNaN _ limited
            have below := Number.rank_lt_nan _ number
            rw [same, limitNan] at below
            exact lt_irrefl _ below
          · rintro ⟨⟨_, _, limit, limitHere, _⟩, _⟩
            simp [place, limited] at limitHere
      | false =>
          have keeps := narrowed_side value stands placed bound.limit limited
          rw [passes_iff_holds bound _ number limited, admits_iff_holds bound value stands placed limited]
          obtain ⟨relation, limit⟩ := bound
          cases relation with
          | gt => exact exclusive_rounding stands _ _ keeps.1
          | lt => exact @exclusive_rounding (Nat ×ₗ ℚ)ᵒᵈ _ stands _ _ keeps.2
          | ge =>
              refine iff_of_false (fun rounded => rounded.2) ?_
              rintro ⟨inside, refused⟩
              exact refused (keeps.1 inside)
          | le =>
              refine iff_of_false (fun rounded => rounded.2) ?_
              rintro ⟨inside, refused⟩
              exact refused (keeps.2 inside)

/-! ## Intervals -/

/-- The two sides of an interval; a side without a bound is open. -/
structure Interval where
  low : Option Bound
  high : Option Bound

def Bound.renderLow (bound : Bound) : Text :=
  match bound.relation with
  | .gt => text "(" ++ bound.limit.toText
  | _ => text "[" ++ bound.limit.toText

def Bound.renderHigh (bound : Bound) : Text :=
  match bound.relation with
  | .lt => bound.limit.toText ++ text ")"
  | _ => bound.limit.toText ++ text "]"

def Interval.render (interval : Interval) : Text :=
  (interval.low.elim (text "(-inf") Bound.renderLow) ++ text ", " ++
    (interval.high.elim (text "+inf)") Bound.renderHigh)

def Interval.bounds (interval : Interval) : List Bound :=
  interval.low.toList ++ interval.high.toList

/-- The bounds that the open sides state when they are read to leave out their infinity. -/
def Interval.ends (interval : Interval) : List Bound :=
  (if interval.low.isNone then [⟨.gt, .infinity true⟩] else []) ++
    if interval.high.isNone then [⟨.lt, .infinity false⟩] else []

/-- `endless` tells whether an open side has all numbers or all but its infinity. -/
def Interval.Contains (interval : Interval) (endless : Bool) (value : Numeric) : Prop :=
  (∀ bound ∈ interval.bounds, bound.Admits value) ∧
    (endless = false → ∀ bound ∈ interval.ends, bound.Admits value)

def ArgumentConstraints.bounded (constraints : ArgumentConstraints) : Prop :=
  constraints.ge ≠ none ∨ constraints.le ≠ none ∨ constraints.gt ≠ none ∨ constraints.lt ≠ none

instance (constraints : ArgumentConstraints) : Decidable constraints.bounded :=
  inferInstanceAs (Decidable (_ ∨ _))

/-- An exclusive bound takes the place of an inclusive one of its side. -/
def ArgumentConstraints.interval (constraints : ArgumentConstraints) : Interval where
  low := (constraints.gt.map (Bound.mk .gt)).or (constraints.ge.map (Bound.mk .ge))
  high := (constraints.lt.map (Bound.mk .lt)).or (constraints.le.map (Bound.mk .le))

def ArgumentConstraints.advertised (constraints : ArgumentConstraints) : Option Interval :=
  if constraints.bounded then some constraints.interval else none

/-- The bounds that are checked and not shown. -/
def ArgumentConstraints.hidden (constraints : ArgumentConstraints) : List Bound :=
  (if constraints.gt.isSome then (constraints.ge.map (Bound.mk .ge)).toList else []) ++
    if constraints.lt.isSome then (constraints.le.map (Bound.mk .le)).toList else []

theorem formatRange_advertised (constraints : ArgumentConstraints) :
    formatRange constraints.ge constraints.le constraints.gt constraints.lt =
      constraints.advertised.map Interval.render := by
  obtain ⟨_, ge, le, gt, lt, _⟩ := constraints
  cases ge <;> cases le <;> cases gt <;> cases lt <;> rfl

/-! ## Enforcement -/

private theorem checkBound_ok (name : Text) (relation : String) (bound : Option Number)
    (refuses : Number → Bool) : checkBound name relation bound refuses = .ok () ↔
      ∀ limit ∈ bound, refuses limit = false := by
  cases bound with
  | none => simp [checkBound]
  | some limit => cases refused : refuses limit <;> simp [checkBound, refused]

private theorem then_ok (first : Except Text Unit) (rest : Except Text Unit) :
    (first >>= fun _ => rest) = .ok () ↔ first = .ok () ∧ rest = .ok () := by
  cases first with
  | error failure => exact iff_of_false nofun fun both => nomatch both.1
  | ok done => exact ⟨fun success => ⟨rfl, success⟩, fun both => both.2⟩

private theorem checkBounds_ok (name : Text) (constraints : ArgumentConstraints) (num : Number) :
    checkBounds name constraints num = .ok () ↔
      (∀ bound ∈ constraints.interval.bounds, bound.Passes num) ∧
        ∀ bound ∈ constraints.hidden, bound.Passes num := by
  unfold checkBounds
  rw [then_ok, then_ok, then_ok, checkBound_ok, checkBound_ok, checkBound_ok, checkBound_ok]
  obtain ⟨_, ge, le, gt, lt, _⟩ := constraints
  cases ge <;> cases le <;> cases gt <;> cases lt <;>
    simp [ArgumentConstraints.interval, ArgumentConstraints.hidden, Interval.bounds,
      Bound.Passes] <;> tauto

/-- No choices are given, or the value is one of them. -/
def Chosen (choices : Option (List Value)) (value : Value) : Prop :=
  ∀ given ∈ choices, given = [] ∨ ∃ choice ∈ given, choiceEquals choice value = true

section

variable (stringify : Value → Text) (regExp : Text → Option (Text → Bool))

private theorem checkChoices_ok (name : Text) (choices : Option (List Value)) (value : Value) :
    checkChoices stringify name choices value = .ok () ↔ Chosen choices value := by
  unfold checkChoices Chosen
  cases choices with
  | none => simp
  | some given =>
      cases given with
      | nil => simp
      | cons first rest =>
          cases chosen : (first :: rest).any fun choice => choiceEquals choice value with
          | true => simpa [chosen] using List.any_eq_true.mp chosen
          | false => simpa [chosen] using List.any_eq_false.mp chosen

private theorem validate_numeric (name : Text) (constraints : ArgumentConstraints)
    (value : Numeric) :
    validateConstConstraints stringify regExp name constraints value.toValue = .ok () ↔
      checkBounds name constraints value.narrowed = .ok () ∧
        Chosen constraints.choices value.toValue := by
  rw [← checkChoices_ok stringify name]
  cases value with
  | number number =>
      have patternless : checkPattern stringify regExp name constraints.pattern (.number number) =
          .ok () := by
        cases constraints.pattern <;> rfl
      simp [validateConstConstraints, Numeric.toValue, Numeric.narrowed, toNumber, then_ok,
        patternless]
  | bigint integer =>
      have patternless : checkPattern stringify regExp name constraints.pattern (.bigint integer) =
          .ok () := by
        cases constraints.pattern <;> rfl
      simp [validateConstConstraints, Numeric.toValue, Numeric.narrowed, toNumber, then_ok,
        patternless]

end

/-! ## Agreement -/

/-- A bound that is shown keeps the value out, and the check sees it. -/
def KeptOut (constraints : ArgumentConstraints) (value : Numeric) : Prop :=
  ∃ interval ∈ constraints.advertised, ∃ bound ∈ interval.bounds,
    ¬bound.Admits value ∧ ¬bound.Overlooks value

/-- The value is outside what is shown, and the check of that side lets it by. -/
def LetBy (endless : Bool) (constraints : ArgumentConstraints) (value : Numeric) : Prop :=
  ∃ interval ∈ constraints.advertised, (∃ bound ∈ interval.bounds, bound.Overlooks value) ∨
    endless = false ∧ ∃ bound ∈ interval.ends, ¬bound.Admits value

/-- The value is refused for another reason than that it is outside what is shown. -/
def RefusedUnseen (constraints : ArgumentConstraints) (value : Numeric) : Prop :=
  (∃ bound ∈ constraints.interval.bounds, bound.Overruns value) ∨
    (∃ bound ∈ constraints.hidden, ¬bound.Passes value.narrowed) ∨
    ¬Chosen constraints.choices value.toValue

private theorem bounds_unbounded (constraints : ArgumentConstraints)
    (unbounded : ¬constraints.bounded) : constraints.interval.bounds = [] := by
  obtain ⟨_, ge, le, gt, lt, _⟩ := constraints
  simp [ArgumentConstraints.bounded] at unbounded
  obtain ⟨rfl, rfl, rfl, rfl⟩ := unbounded
  rfl

private theorem advertised_bounds (constraints : ArgumentConstraints) (holds : Bound → Prop) :
    (∃ interval ∈ constraints.advertised, ∃ bound ∈ interval.bounds, holds bound) ↔
      ∃ bound ∈ constraints.interval.bounds, holds bound := by
  unfold ArgumentConstraints.advertised
  by_cases bounded : constraints.bounded
  · simp [bounded]
  · simp [bounded, bounds_unbounded constraints bounded]

/-- A bound refuses what it keeps out and sees, and what it overruns. -/
private theorem refuses_iff (bound : Bound) (value : Numeric) :
    ¬bound.Passes value.narrowed ↔
      (¬bound.Admits value ∧ ¬bound.Overlooks value) ∨ bound.Overruns value := by
  rw [bound.overlooks_iff, bound.overruns_iff]
  by_cases bound.Admits value <;> by_cases bound.Passes value.narrowed <;> simp [*]

private theorem keeps_out_iff (bound : Bound) (value : Numeric) :
    ¬bound.Admits value ↔ (¬bound.Admits value ∧ ¬bound.Overlooks value) ∨
      bound.Overlooks value := by
  rw [bound.overlooks_iff]
  by_cases bound.Admits value <;> by_cases bound.Passes value.narrowed <;> simp [*]

section

variable (stringify : Value → Text) (regExp : Text → Option (Text → Bool))

private theorem refused_iff (name : Text) (constraints : ArgumentConstraints) (value : Numeric) :
    ¬validateConstConstraints stringify regExp name constraints value.toValue = .ok () ↔
      KeptOut constraints value ∨ RefusedUnseen constraints value := by
  rw [validate_numeric, checkBounds_ok, KeptOut, advertised_bounds, RefusedUnseen, ← or_assoc,
    ← exists_or, not_and_or, not_and_or, or_assoc]
  simp only [← and_or_left, ← refuses_iff, not_forall, exists_prop]

private theorem outside_iff (endless : Bool) (constraints : ArgumentConstraints) (value : Numeric) :
    (¬∀ interval ∈ constraints.advertised, interval.Contains endless value) ↔
      KeptOut constraints value ∨ LetBy endless constraints value := by
  unfold KeptOut LetBy Interval.Contains
  simp only [← exists_or, ← and_or_left, ← or_assoc, ← keeps_out_iff, not_forall, exists_prop,
    not_and_or]

/-- The shown interval is what the check enforces, exactly when a bound that both see keeps the
value out, or neither lets it by nor refuses it for itself, or both do. -/
theorem advertised_range_enforced_iff (name : Text) (constraints : ArgumentConstraints)
    (value : Numeric) (endless : Bool) :
    formatRange constraints.ge constraints.le constraints.gt constraints.lt =
        constraints.advertised.map Interval.render ∧
      ((validateConstConstraints stringify regExp name constraints value.toValue = .ok () ↔
          ∀ interval ∈ constraints.advertised, interval.Contains endless value) ↔
        KeptOut constraints value ∨
          (LetBy endless constraints value ↔ RefusedUnseen constraints value)) := by
  refine ⟨formatRange_advertised constraints, ?_⟩
  have refused := refused_iff stringify regExp name constraints value
  have outside := outside_iff endless constraints value
  refine not_iff_not.symm.trans ?_
  rw [refused, outside]
  by_cases KeptOut constraints value <;> by_cases LetBy endless constraints value <;>
    by_cases RefusedUnseen constraints value <;> simp [*]

end

/-- Both lower bounds are given: the exclusive one is shown, the inclusive one refuses. -/
theorem inclusive_bound_hidden :
    let constraints : ArgumentConstraints := {
      choices := none, ge := some (.ofInt 5), le := none, gt := some (.ofInt 1), lt := none,
      pattern := none }
    formatRange constraints.ge constraints.le constraints.gt constraints.lt =
        some (text "(1, +inf)") ∧
      validateConstConstraints (fun _ => []) (fun _ => none) (text "n") constraints
          (.number (.ofInt 3)) = .error (text "argument 'n' must be >= 5") ∧
      (∀ interval ∈ constraints.advertised, interval.Contains true (.number (.ofInt 3))) ∧
      validateConstConstraints (fun _ => []) (fun _ => none) (text "n") constraints
          (.number .nan) = .ok () ∧
      ¬∀ interval ∈ constraints.advertised, interval.Contains true (.number .nan) := by
  have three : place (.ofInt 3) = some (toLex (1, 3)) := by decide +kernel
  have one : place (.ofInt 1) = some (toLex (1, 1)) := by decide +kernel
  refine ⟨by decide +kernel, by decide +kernel, ?_, by decide +kernel, ?_⟩
  · intro interval shown
    obtain rfl := Option.some.inj shown
    refine ⟨?_, nofun⟩
    intro bound member
    obtain rfl := List.mem_singleton.mp member
    refine ⟨_, three, _, one, ?_⟩
    exact Prod.Lex.toLex_lt_toLex.mpr (.inr ⟨rfl, by norm_num⟩)
  · intro inside
    obtain ⟨_, nowhere, _⟩ := (inside _ rfl).1 _ (List.mem_singleton.mpr rfl)
    cases nowhere

end VgiWorker.ArgumentSpecs
