import VgiWorker.Js.Json

/-!
# The grammar of JSON

The texts of RFC 8259, with the white space between tokens a parameter. Each
rule relates a value to the text before it and the text it leaves.
-/

set_option autoImplicit false

namespace VgiWorker.Js

/-- What a JSON text says, every member of an object kept. -/
inductive JsonTree where
  | null
  | bool (value : Bool)
  | number (value : Number)
  | string (value : Text)
  | array (elements : List JsonTree)
  | object (members : List (Text × JsonTree))

namespace JsonTree

section

variable (numbers : Number → Prop) (names : List Text → Prop)

mutual

/-- Every number and every object's list of names is as asked. -/
def Each : JsonTree → Prop
  | .number value => numbers value
  | .array elements => EachElement elements
  | .object members => names (members.map Prod.fst) ∧ EachMember members
  | _ => True

def EachElement : List JsonTree → Prop
  | [] => True
  | element :: rest => Each element ∧ EachElement rest

def EachMember : List (Text × JsonTree) → Prop
  | [] => True
  | (_, value) :: rest => Each value ∧ EachMember rest

end

end

section

variable {numbers : Number → Prop} {names : List Text → Prop}

mutual

theorem each_of_forall (numbersHold : ∀ number, numbers number)
    (namesHold : ∀ list, names list) : ∀ tree : JsonTree, tree.Each numbers names
  | .null => trivial
  | .bool _ => trivial
  | .number value => numbersHold value
  | .string _ => trivial
  | .array elements => eachElement_of_forall numbersHold namesHold elements
  | .object members => ⟨namesHold _, eachMember_of_forall numbersHold namesHold members⟩

theorem eachElement_of_forall (numbersHold : ∀ number, numbers number)
    (namesHold : ∀ list, names list) :
    ∀ elements : List JsonTree, EachElement numbers names elements
  | [] => trivial
  | element :: rest =>
      ⟨each_of_forall numbersHold namesHold element,
        eachElement_of_forall numbersHold namesHold rest⟩

theorem eachMember_of_forall (numbersHold : ∀ number, numbers number)
    (namesHold : ∀ list, names list) :
    ∀ members : List (Text × JsonTree), EachMember numbers names members
  | [] => trivial
  | (_, value) :: rest =>
      ⟨each_of_forall numbersHold namesHold value,
        eachMember_of_forall numbersHold namesHold rest⟩

end

end

end JsonTree

namespace JsonGrammar

/-! ## Tokens -/

inductive Space (isSpace : CodeUnit → Bool) : Text → Text → Prop
  | done (rest : Text) : Space isSpace rest rest
  | step (unit : CodeUnit) (source rest : Text) (space : isSpace unit = true)
      (more : Space isSpace source rest) : Space isSpace (unit :: source) rest

/-- One digit or more. -/
def IsDigits (digits : Text) : Prop :=
  digits ≠ [] ∧ ∀ unit ∈ digits, Number.isDigit unit = true

inductive WholePart : Text → Text → Text → Prop
  | zero (rest : Text) : WholePart [48] (48 :: rest) rest
  | digits (whole rest : Text) (digits : IsDigits whole) (lead : whole.head? ≠ some 48) :
      WholePart whole (whole ++ rest) rest

inductive FractionPart : Text → Text → Text → Prop
  | absent (rest : Text) : FractionPart [] rest rest
  | present (fraction rest : Text) (digits : IsDigits fraction) :
      FractionPart fraction (46 :: (fraction ++ rest)) rest

/-- The sign of an exponent. -/
inductive SignPart : Bool → Text → Text → Prop
  | absent (rest : Text) : SignPart false rest rest
  | plus (rest : Text) : SignPart false (43 :: rest) rest
  | minus (rest : Text) : SignPart true (45 :: rest) rest

inductive ExponentPart : Int → Text → Text → Prop
  | absent (rest : Text) : ExponentPart 0 rest rest
  | present (marker : CodeUnit) (negative : Bool) (source digits rest : Text)
      (isMarker : marker = 101 ∨ marker = 69) (sign : SignPart negative source (digits ++ rest))
      (isDigits : IsDigits digits) :
      ExponentPart
        (if negative then -(Number.natOfDigits digits : Int) else Number.natOfDigits digits)
        (marker :: source) rest

inductive NumberToken : Number → Text → Text → Prop
  | plain (whole fraction : Text) (exponent : Int) (source afterWhole afterFraction rest : Text)
      (isWhole : WholePart whole source afterWhole)
      (isFraction : FractionPart fraction afterWhole afterFraction)
      (isExponent : ExponentPart exponent afterFraction rest) :
      NumberToken (Number.ofDecimal false whole fraction exponent) source rest
  | negative (whole fraction : Text) (exponent : Int)
      (source afterWhole afterFraction rest : Text)
      (isWhole : WholePart whole source afterWhole)
      (isFraction : FractionPart fraction afterWhole afterFraction)
      (isExponent : ExponentPart exponent afterFraction rest) :
      NumberToken (Number.ofDecimal true whole fraction exponent) (45 :: source) rest

/-- The characters of a string and its closing quote. -/
inductive Characters : Text → Text → Text → Prop
  | close (rest : Text) : Characters [] (34 :: rest) rest
  | plain (unit : CodeUnit) (value source rest : Text) (printable : 0x20 ≤ unit.toNat)
      (notQuote : unit ≠ 34) (notEscape : unit ≠ 92) (more : Characters value source rest) :
      Characters (unit :: value) (unit :: source) rest
  | escape (letter unit : CodeUnit) (value source rest : Text)
      (isEscape : simpleEscape? letter = some unit) (more : Characters value source rest) :
      Characters (unit :: value) (92 :: letter :: source) rest
  | unicode (a b c d : CodeUnit) (high second third low : Nat) (value source rest : Text)
      (isHigh : hexValue? a = some high) (isSecond : hexValue? b = some second)
      (isThird : hexValue? c = some third) (isLow : hexValue? d = some low)
      (more : Characters value source rest) :
      Characters (UInt16.ofNat (high * 4096 + second * 256 + third * 16 + low) :: value)
        (92 :: 117 :: a :: b :: c :: d :: source) rest

/-! ## Values -/

section

variable (isSpace : CodeUnit → Bool)

mutual

inductive Value : JsonTree → Text → Text → Prop
  | null (rest : Text) : Value .null (text "null" ++ rest) rest
  | false (rest : Text) : Value (.bool false) (text "false" ++ rest) rest
  | true (rest : Text) : Value (.bool true) (text "true" ++ rest) rest
  | number (number : Number) (source rest : Text) (token : NumberToken number source rest) :
      Value (.number number) source rest
  | string (value source rest : Text) (token : Characters value source rest) :
      Value (.string value) (34 :: source) rest
  | emptyArray (source rest : Text) (space : Space isSpace source (93 :: rest)) :
      Value (.array []) (91 :: source) rest
  | array (elements : List JsonTree) (source rest : Text)
      (each : Elements elements source (93 :: rest)) : Value (.array elements) (91 :: source) rest
  | emptyObject (source rest : Text) (space : Space isSpace source (125 :: rest)) :
      Value (.object []) (123 :: source) rest
  | object (members : List (Text × JsonTree)) (source rest : Text)
      (each : Members members source (125 :: rest)) :
      Value (.object members) (123 :: source) rest

/-- A value with the white space around it. -/
inductive Spaced : JsonTree → Text → Text → Prop
  | mk (tree : JsonTree) (source start after rest : Text) (before : Space isSpace source start)
      (value : Value tree start after) (behind : Space isSpace after rest) :
      Spaced tree source rest

inductive Elements : List JsonTree → Text → Text → Prop
  | last (tree : JsonTree) (source rest : Text) (value : Spaced tree source rest) :
      Elements [tree] source rest
  | more (tree : JsonTree) (others : List JsonTree) (source between rest : Text)
      (value : Spaced tree source (44 :: between)) (each : Elements others between rest) :
      Elements (tree :: others) source rest

inductive Members : List (Text × JsonTree) → Text → Text → Prop
  | last (name : Text) (tree : JsonTree) (source start afterName afterColon rest : Text)
      (before : Space isSpace source (34 :: start)) (isName : Characters name start afterName)
      (colon : Space isSpace afterName (58 :: afterColon))
      (value : Spaced tree afterColon rest) : Members [(name, tree)] source rest
  | more (name : Text) (tree : JsonTree) (others : List (Text × JsonTree))
      (source start afterName afterColon between rest : Text)
      (before : Space isSpace source (34 :: start)) (isName : Characters name start afterName)
      (colon : Space isSpace afterName (58 :: afterColon))
      (value : Spaced tree afterColon (44 :: between)) (each : Members others between rest) :
      Members ((name, tree) :: others) source rest

end

theorem space_trans (source middle rest : Text) (first : Space isSpace source middle)
    (second : Space isSpace middle rest) : Space isSpace source rest := by
  induction first with
  | done _ => exact second
  | step unit source middle space _ ih => exact .step unit source rest space (ih second)

variable {isSpace}

theorem spaced_space (tree : JsonTree) (source middle rest : Text)
    (space : Space isSpace source middle) (spaced : Spaced isSpace tree middle rest) :
    Spaced isSpace tree source rest := by
  cases spaced with
  | mk _ _ start after _ before value behind =>
      exact .mk tree source start after rest (space_trans isSpace source middle start space before)
        value behind

theorem elements_space (elements : List JsonTree) (source middle rest : Text)
    (space : Space isSpace source middle) (each : Elements isSpace elements middle rest) :
    Elements isSpace elements source rest := by
  cases each with
  | last tree _ _ value => exact .last tree source rest (spaced_space tree _ _ _ space value)
  | more tree others _ between _ value each =>
      exact .more tree others source between rest (spaced_space tree _ _ _ space value) each

theorem members_space (members : List (Text × JsonTree)) (source middle rest : Text)
    (space : Space isSpace source middle) (each : Members isSpace members middle rest) :
    Members isSpace members source rest := by
  cases each with
  | last name tree _ start afterName afterColon _ before isName colon value =>
      exact .last name tree source start afterName afterColon rest
        (space_trans isSpace _ _ _ space before) isName colon value
  | more name tree others _ start afterName afterColon between _ before isName colon value each =>
      exact .more name tree others source start afterName afterColon between rest
        (space_trans isSpace _ _ _ space before) isName colon value each

/-! ### Lengths -/

theorem length_space (source rest : Text) (space : Space isSpace source rest) :
    rest.length ≤ source.length := by
  induction space with
  | done _ => exact Nat.le_refl _
  | step _ _ _ _ _ ih => exact Nat.le_succ_of_le ih

theorem length_characters (value source rest : Text) (token : Characters value source rest) :
    rest.length ≤ source.length := by
  induction token with
  | close rest => exact Nat.le_succ rest.length
  | plain _ _ _ _ _ _ _ _ ih => exact Nat.le_succ_of_le ih
  | escape _ _ _ _ _ _ _ ih => exact Nat.le_trans ih (Nat.le_add_right _ 2)
  | unicode _ _ _ _ _ _ _ _ _ _ _ _ _ _ _ _ ih => exact Nat.le_trans ih (Nat.le_add_right _ 6)

private theorem length_parts (whole fraction : Text) (exponent : Int)
    (source afterWhole afterFraction rest : Text) (isWhole : WholePart whole source afterWhole)
    (isFraction : FractionPart fraction afterWhole afterFraction)
    (isExponent : ExponentPart exponent afterFraction rest) : rest.length ≤ source.length := by
  have first : afterWhole.length ≤ source.length := by
    cases isWhole with
    | zero _ => exact Nat.le_succ _
    | digits _ _ _ _ => simp
  have second : afterFraction.length ≤ afterWhole.length := by
    cases isFraction with
    | absent _ => exact Nat.le_refl _
    | present _ _ _ =>
        simp only [List.length_cons, List.length_append]
        omega
  have third : rest.length ≤ afterFraction.length := by
    cases isExponent with
    | absent _ => exact Nat.le_refl _
    | present _ _ after digits _ _ sign _ =>
        have signed : (digits ++ rest).length ≤ after.length := by
          generalize digits ++ rest = signed at sign
          cases sign with
          | absent _ => exact Nat.le_refl _
          | plus _ => exact Nat.le_succ _
          | minus _ => exact Nat.le_succ _
        simp only [List.length_cons, List.length_append] at signed ⊢
        omega
  omega

theorem length_number (number : Number) (source rest : Text)
    (token : NumberToken number source rest) : rest.length ≤ source.length := by
  cases token with
  | plain whole fraction exponent _ afterWhole afterFraction _ isWhole isFraction isExponent =>
      exact length_parts whole fraction exponent _ _ _ _ isWhole isFraction isExponent
  | negative whole fraction exponent _ afterWhole afterFraction _ isWhole isFraction isExponent =>
      exact Nat.le_succ_of_le
        (length_parts whole fraction exponent _ _ _ _ isWhole isFraction isExponent)

mutual

theorem length_value : ∀ {tree : JsonTree} {source rest : Text},
    Value isSpace tree source rest → rest.length ≤ source.length
  | _, _, _, .null rest => by simp
  | _, _, _, .false rest => by simp
  | _, _, _, .true rest => by simp
  | _, _, _, .number number source rest token => length_number number source rest token
  | _, _, _, .string value source rest token =>
      Nat.le_succ_of_le (length_characters value source rest token)
  | _, _, _, .emptyArray source rest space => by
      have inside := length_space source _ space
      simp only [List.length_cons] at inside ⊢
      omega
  | _, _, _, .array elements source rest each => by
      have inside := length_elements each
      simp only [List.length_cons] at inside ⊢
      omega
  | _, _, _, .emptyObject source rest space => by
      have inside := length_space source _ space
      simp only [List.length_cons] at inside ⊢
      omega
  | _, _, _, .object members source rest each => by
      have inside := length_members each
      simp only [List.length_cons] at inside ⊢
      omega

theorem length_spaced : ∀ {tree : JsonTree} {source rest : Text},
    Spaced isSpace tree source rest → rest.length ≤ source.length
  | _, _, _, .mk tree source start after rest before value behind =>
      Nat.le_trans (length_space after rest behind)
        (Nat.le_trans (length_value value) (length_space source start before))

theorem length_elements : ∀ {elements : List JsonTree} {source rest : Text},
    Elements isSpace elements source rest → rest.length ≤ source.length
  | _, _, _, .last tree source rest value => length_spaced value
  | _, _, _, .more tree others source between rest value each =>
      Nat.le_trans (length_elements each)
        (Nat.le_trans (Nat.le_succ between.length) (length_spaced value))

theorem length_members : ∀ {members : List (Text × JsonTree)} {source rest : Text},
    Members isSpace members source rest → rest.length ≤ source.length
  | _, _, _, .last name tree source start afterName afterColon rest before isName colon value => by
      have first := length_space source _ before
      have second := length_characters name start afterName isName
      have third := length_space afterName _ colon
      have fourth := length_spaced value
      simp only [List.length_cons] at first third
      omega
  | _, _, _, .more name tree others source start afterName afterColon between rest before isName
      colon value each => by
      have first := length_space source _ before
      have second := length_characters name start afterName isName
      have third := length_space afterName _ colon
      have fourth := length_spaced value
      have fifth := length_members each
      simp only [List.length_cons] at first third fourth
      omega

end

variable (isSpace)

/-- A whole text. -/
def IsText (tree : JsonTree) (source : Text) : Prop :=
  Spaced isSpace tree source []

end

/-! ## More white space -/

section

variable {isSpace wider : CodeUnit → Bool}

theorem space_widen (widens : ∀ unit, isSpace unit = true → wider unit = true)
    (source rest : Text) (space : Space isSpace source rest) : Space wider source rest := by
  induction space with
  | done rest => exact .done rest
  | step unit source rest isSpace _ ih => exact .step unit source rest (widens unit isSpace) ih

mutual

theorem value_widen (widens : ∀ unit, isSpace unit = true → wider unit = true) :
    ∀ {tree : JsonTree} {source rest : Text}, Value isSpace tree source rest →
      Value wider tree source rest
  | _, _, _, .null rest => .null rest
  | _, _, _, .false rest => .false rest
  | _, _, _, .true rest => .true rest
  | _, _, _, .number number source rest token => .number number source rest token
  | _, _, _, .string value source rest token => .string value source rest token
  | _, _, _, .emptyArray source rest space =>
      .emptyArray source rest (space_widen widens source _ space)
  | _, _, _, .array elements source rest each =>
      .array elements source rest (elements_widen widens each)
  | _, _, _, .emptyObject source rest space =>
      .emptyObject source rest (space_widen widens source _ space)
  | _, _, _, .object members source rest each =>
      .object members source rest (members_widen widens each)

theorem spaced_widen (widens : ∀ unit, isSpace unit = true → wider unit = true) :
    ∀ {tree : JsonTree} {source rest : Text}, Spaced isSpace tree source rest →
      Spaced wider tree source rest
  | _, _, _, .mk tree source start after rest before value behind =>
      .mk tree source start after rest (space_widen widens source start before)
        (value_widen widens value) (space_widen widens after rest behind)

theorem elements_widen (widens : ∀ unit, isSpace unit = true → wider unit = true) :
    ∀ {elements : List JsonTree} {source rest : Text}, Elements isSpace elements source rest →
      Elements wider elements source rest
  | _, _, _, .last tree source rest value => .last tree source rest (spaced_widen widens value)
  | _, _, _, .more tree others source between rest value each =>
      .more tree others source between rest (spaced_widen widens value)
        (elements_widen widens each)

theorem members_widen (widens : ∀ unit, isSpace unit = true → wider unit = true) :
    ∀ {members : List (Text × JsonTree)} {source rest : Text},
      Members isSpace members source rest → Members wider members source rest
  | _, _, _, .last name tree source start afterName afterColon rest before isName colon value =>
      .last name tree source start afterName afterColon rest (space_widen widens source _ before)
        isName (space_widen widens afterName _ colon) (spaced_widen widens value)
  | _, _, _, .more name tree others source start afterName afterColon between rest before isName
      colon value each =>
      .more name tree others source start afterName afterColon between rest
        (space_widen widens source _ before) isName (space_widen widens afterName _ colon)
        (spaced_widen widens value) (members_widen widens each)

end

end

end JsonGrammar

end VgiWorker.Js
