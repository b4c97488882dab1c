import VgiWorker.Arrow.Types

/-!
# Operators on canonical values

The ECMAScript conversions and comparisons, on the values a cell can hold.
-/

set_option autoImplicit false

namespace VgiWorker.Arrow

open VgiWorker.Js

/-- Code-unit order of strings. -/
def textLess : Text → Text → Bool
  | [], [] => false
  | [], _ :: _ => true
  | _ :: _, [] => false
  | left :: leftRest, right :: rightRest =>
      if left = right then textLess leftRest rightRest else decide (left.toNat < right.toNat)

namespace Value

mutual

/-- `String(value)`. -/
def toText : Value → Text
  | .null => text "null"
  | .bool value => if value then text "true" else text "false"
  | .number value => value.toText
  | .bigint value => Number.decimalInt value
  | .string value => value
  | .bytes value => joinText (text ",") (value.map fun byte => Number.decimal byte.toNat)
  | .array elements => joinText (text ",") (elementTexts elements)
  | .object _ => text "[object Object]"

/-- The elements of an array as `join` writes them, `null` as nothing. -/
def elementTexts : List Value → List Text
  | [] => []
  | .null :: rest => [] :: elementTexts rest
  | element :: rest => toText element :: elementTexts rest

end

/-- `Number(value)`. -/
def toNumber : Value → Number
  | .null => Number.zero
  | .bool value => if value then Number.ofNat 1 else Number.zero
  | .number value => value
  | .bigint value => Number.ofInt value
  | value => Number.ofText value.toText

def truthy : Value → Bool
  | .null => false
  | .bool value => value
  | .number value => !(value.isNaN || value.toRat? == some 0)
  | .bigint value => decide (value ≠ 0)
  | .string value => !value.isEmpty
  | _ => true

/-- `left === right`; two objects are never the same one. -/
def strictEq (left right : Value) : Bool :=
  match left, right with
  | .null, .null => true
  | .bool leftValue, .bool rightValue => leftValue == rightValue
  | .number leftValue, .number rightValue => leftValue.strictEq rightValue
  | .bigint leftValue, .bigint rightValue => leftValue == rightValue
  | .string leftValue, .string rightValue => leftValue == rightValue
  | _, _ => false

def isObject : Value → Bool
  | .bytes _ | .array _ | .object _ => true
  | _ => false

/-- `left < right` between a bigint and a number. -/
def bigintLess (left : Int) (right : Number) : Bool :=
  match right with
  | .nan => false
  | .infinity negative => !negative
  | _ => match right.toRat? with
    | some value => decide ((left : ℚ) < value)
    | none => false

def lessBigint (left : Number) (right : Int) : Bool :=
  match left with
  | .nan => false
  | .infinity negative => negative
  | _ => match left.toRat? with
    | some value => decide (value < (right : ℚ))
    | none => false

/-- The primitive an operand of `<` is converted to. -/
def toPrimitive (value : Value) : Value :=
  if value.isObject then .string value.toText else value

/-- `left < right`. -/
def less (left right : Value) : Bool :=
  match left.toPrimitive, right.toPrimitive with
  | .string leftText, .string rightText => textLess leftText rightText
  | .bigint leftInt, .bigint rightInt => decide (leftInt < rightInt)
  | .bigint leftInt, .string rightText =>
      match Number.bigIntOfText? rightText with
      | some rightInt => decide (leftInt < rightInt)
      | none => false
  | .string leftText, .bigint rightInt =>
      match Number.bigIntOfText? leftText with
      | some leftInt => decide (leftInt < rightInt)
      | none => false
  | .bigint leftInt, rightValue => bigintLess leftInt rightValue.toNumber
  | leftValue, .bigint rightInt => lessBigint leftValue.toNumber rightInt
  | leftValue, rightValue => leftValue.toNumber.less rightValue.toNumber

end Value

end VgiWorker.Arrow
