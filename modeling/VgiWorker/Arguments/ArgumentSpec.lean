import VgiWorker.Arrow.Value

/-!
# Argument constraints

The numeric bounds, choices and pattern of a function argument: the interval
that discovery shows for the bounds, and the check of a value at bind time.
-/

set_option autoImplicit false

namespace VgiWorker.ArgumentSpecs

open VgiWorker.Js VgiWorker.Arrow

structure ArgumentConstraints where
  choices : Option (List Value)
  ge : Option Number
  le : Option Number
  gt : Option Number
  lt : Option Number
  pattern : Option Text

/-- Interval notation of the bounds, and nothing where there are none. -/
def formatRange (ge le gt lt : Option Number) : Option Text :=
  if ge = none ∧ le = none ∧ gt = none ∧ lt = none then none
  else
    let low :=
      match gt, ge with
      | some bound, _ => text "(" ++ bound.toText
      | none, some bound => text "[" ++ bound.toText
      | none, none => text "(-inf"
    let high :=
      match lt, le with
      | some bound, _ => bound.toText ++ text ")"
      | none, some bound => bound.toText ++ text "]"
      | none, none => text "+inf)"
    some (low ++ text ", " ++ high)

/-- A number, or a bigint narrowed to one. -/
def toNumber : Value → Option Number
  | .number value => some value
  | .bigint value => some (Number.ofInt value)
  | _ => none

def choiceEquals (choice value : Value) : Bool :=
  match toNumber choice, toNumber value with
  | some choiceNumber, some number => choiceNumber.strictEq number
  | _, _ => choice.strictEq value

/-- A bound that is given refuses the number or lets it pass. -/
def checkBound (name : Text) (relation : String) (bound : Option Number)
    (refuses : Number → Bool) : Except Text Unit :=
  match bound with
  | none => .ok ()
  | some limit =>
      if refuses limit then
        .error (text "argument '" ++ name ++ text "' must be " ++ text relation ++ text " " ++
          limit.toText)
      else .ok ()

def checkBounds (name : Text) (constraints : ArgumentConstraints) (num : Number) :
    Except Text Unit := do
  checkBound name ">=" constraints.ge fun limit => num.less limit
  checkBound name "<=" constraints.le fun limit => limit.less num
  checkBound name ">" constraints.gt fun limit => num.lessEq limit
  checkBound name "<" constraints.lt fun limit => limit.lessEq num

section

variable (stringify : Value → Text) (regExp : Text → Option (Text → Bool))

def checkChoices (name : Text) (choices : Option (List Value)) (value : Value) : Except Text Unit :=
  match choices with
  | some (first :: rest) =>
      if (first :: rest).any fun choice => choiceEquals choice value then .ok ()
      else
        .error (text "argument '" ++ name ++ text "' must be one of " ++
          stringify (.array (first :: rest)))
  | _ => .ok ()

/-- An invalid pattern refuses nothing. -/
def checkPattern (name : Text) (pattern : Option Text) (value : Value) : Except Text Unit :=
  match pattern, value with
  | some source, .string string =>
      match regExp source with
      | some search =>
          if search string then .ok ()
          else
            .error (text "argument '" ++ name ++ text "' must match pattern " ++
              stringify (.string source))
      | none => .ok ()
  | _, _ => .ok ()

def validateConstConstraints (name : Text) (constraints : ArgumentConstraints) (value : Value) :
    Except Text Unit :=
  match value with
  | .null => .ok ()
  | value => do
      match toNumber value with
      | some num => checkBounds name constraints num
      | none => .ok ()
      checkChoices stringify name constraints.choices value
      checkPattern stringify regExp name constraints.pattern value

end

end VgiWorker.ArgumentSpecs
