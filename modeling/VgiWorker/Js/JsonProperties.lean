import VgiWorker.Arrow.Types
import VgiWorker.Js.Json

/-!
# JSON texts of strings

`JSON.stringify` of a string, and of an array of strings, reads back: no two
values share a text, whatever follows it. The text is well formed and holds no
zero, so this goes for its bytes as well.
-/

set_option autoImplicit false

namespace VgiWorker.Js

open VgiWorker.Arrow

/-- `JSON.stringify` of an array of strings. -/
def stringifyTexts (values : List Text) : Text :=
  text "[" ++ joinText (text ",") (values.map stringifyText) ++ text "]"

/-! ## One code unit -/

/-- The value of a lowercase hexadecimal digit. -/
private def hexDigitValue (unit : CodeUnit) : Nat :=
  if unit.toNat < 97 then unit.toNat - 48 else unit.toNat - 87

/-- The code unit that a piece of a quoted string stands for. -/
private def unquoteUnit : Text → Option (CodeUnit × Text)
  | 92 :: 117 :: first :: second :: third :: fourth :: rest =>
      some (UInt16.ofNat (hexDigitValue first * 4096 + hexDigitValue second * 256 +
        hexDigitValue third * 16 + hexDigitValue fourth), rest)
  | 92 :: 98 :: rest => some (8, rest)
  | 92 :: 116 :: rest => some (9, rest)
  | 92 :: 110 :: rest => some (10, rest)
  | 92 :: 102 :: rest => some (12, rest)
  | 92 :: 114 :: rest => some (13, rest)
  | 92 :: escaped :: rest => some (escaped, rest)
  | unit :: rest => some (unit, rest)
  | [] => none

private theorem hexDigitValue_hexDigit (value : Nat) :
    hexDigitValue (if value % 16 < 10 then UInt16.ofNat (48 + value % 16)
      else UInt16.ofNat (87 + value % 16)) = value % 16 := by
  have every : ∀ digit : Fin 16, hexDigitValue (if digit.val < 10 then UInt16.ofNat (48 + digit.val)
      else UInt16.ofNat (87 + digit.val)) = digit.val := by decide
  exact every ⟨value % 16, Nat.mod_lt _ (by decide)⟩

private theorem hexDigits_value (code : Nat) (bounded : code < 65536) :
    code / 4096 % 16 * 4096 + code / 256 % 16 * 256 + code / 16 % 16 * 16 + code % 16 = code := by
  omega

/-- How `quoteUnit` writes a code unit. -/
private inductive QuotedAs (unit : CodeUnit) : Text → Prop where
  | escaped (letter : CodeUnit)
      (pair : (unit, letter) ∈ [(34, 34), (92, 92), (8, 98), (12, 102), (10, 110), (13, 114),
        ((9, 116) : CodeUnit × CodeUnit)]) :
      QuotedAs unit [92, letter]
  | hexadecimal (first second third fourth : CodeUnit)
      (digits : ∀ digit ∈ [first, second, third, fourth], 48 ≤ digit.toNat ∧ digit.toNat < 103)
      (value : hexDigitValue first * 4096 + hexDigitValue second * 256 +
        hexDigitValue third * 16 + hexDigitValue fourth = unit.toNat) :
      QuotedAs unit [92, 117, first, second, third, fourth]
  | plain (visible : 0x20 ≤ unit.toNat) (notQuote : unit ≠ 34) (notSlash : unit ≠ 92)
      (notHigh : isHighSurrogate unit = false) (notLow : isLowSurrogate unit = false) :
      QuotedAs unit [unit]

private theorem eq_of_toNat (unit : CodeUnit) (code : Nat) (same : unit.toNat = code) :
    unit = UInt16.ofNat code := by
  rw [← same, UInt16.ofNat_toNat]

private theorem hexDigit_range (value : Nat) :
    48 ≤ (if value % 16 < 10 then UInt16.ofNat (48 + value % 16)
      else UInt16.ofNat (87 + value % 16)).toNat ∧
    (if value % 16 < 10 then UInt16.ofNat (48 + value % 16)
      else UInt16.ofNat (87 + value % 16)).toNat < 103 := by
  have every : ∀ digit : Fin 16, 48 ≤ (if digit.val < 10 then UInt16.ofNat (48 + digit.val)
      else UInt16.ofNat (87 + digit.val)).toNat ∧
      (if digit.val < 10 then UInt16.ofNat (48 + digit.val)
        else UInt16.ofNat (87 + digit.val)).toNat < 103 := by decide
  exact every ⟨value % 16, Nat.mod_lt _ (by decide)⟩

private theorem quotedAs_quoteUnit (unit : CodeUnit) : QuotedAs unit (quoteUnit unit) := by
  unfold quoteUnit
  simp only
  split
  · next code => exact .escaped 34 (by rw [eq_of_toNat unit _ code]; decide)
  split
  · next code => exact .escaped 92 (by rw [eq_of_toNat unit _ code]; decide)
  split
  · next code => exact .escaped 98 (by rw [eq_of_toNat unit _ code]; decide)
  split
  · next code => exact .escaped 102 (by rw [eq_of_toNat unit _ code]; decide)
  split
  · next code => exact .escaped 110 (by rw [eq_of_toNat unit _ code]; decide)
  split
  · next code => exact .escaped 114 (by rw [eq_of_toNat unit _ code]; decide)
  split
  · next code => exact .escaped 116 (by rw [eq_of_toNat unit _ code]; decide)
  split
  · refine .hexadecimal _ _ _ _ ?_ ?_
    · intro digit member
      simp only [List.mem_cons, List.not_mem_nil, or_false] at member
      rcases member with here | here | here | here <;> rw [here] <;> exact hexDigit_range _
    · simp only [hexDigitValue_hexDigit]
      exact hexDigits_value _ (UInt16.toNat_lt unit)
  · next notQuote notSlash _ _ _ _ _ visible =>
    refine .plain (by omega) (fun same => notQuote (by rw [same]; rfl))
      (fun same => notSlash (by rw [same]; rfl)) ?_ ?_
    · simp [isHighSurrogate]
      omega
    · simp [isLowSurrogate]
      omega

private theorem unquoteUnit_quoteUnit (unit : CodeUnit) (rest : Text) :
    unquoteUnit (quoteUnit unit ++ rest) = some (unit, rest) := by
  have written := quotedAs_quoteUnit unit
  generalize quoteUnit unit = quoted at written
  cases written with
  | escaped letter pair =>
      simp only [List.mem_cons, Prod.mk.injEq, List.not_mem_nil, or_false] at pair
      rcases pair with ⟨here, by_⟩ | ⟨here, by_⟩ | ⟨here, by_⟩ | ⟨here, by_⟩ | ⟨here, by_⟩ |
        ⟨here, by_⟩ | ⟨here, by_⟩ <;> rw [here, by_] <;> rfl
  | hexadecimal first second third fourth digits value =>
      simp only [List.cons_append, List.nil_append, unquoteUnit]
      rw [value, UInt16.ofNat_toNat]
  | plain visible notQuote notSlash notHigh notLow =>
      rw [List.singleton_append]
      unfold unquoteUnit
      split <;> simp_all

private theorem quoteUnit_shape (unit : CodeUnit) :
    ∃ first others, quoteUnit unit = first :: others ∧ first ≠ 34 := by
  have written := quotedAs_quoteUnit unit
  generalize quoteUnit unit = quoted at written
  cases written with
  | escaped letter pair => exact ⟨92, [letter], rfl, by decide⟩
  | hexadecimal first second third fourth digits value => exact ⟨92, _, rfl, by decide⟩
  | plain visible notQuote notSlash notHigh notLow => exact ⟨unit, [], rfl, notQuote⟩

/-! ## A string -/

/-- Read a string up to its closing quote. -/
private def unquoteText : Nat → Text → Option (Text × Text)
  | fuel + 1, first :: others =>
      if first = 34 then some ([], others)
      else
        (unquoteUnit (first :: others)).bind fun read =>
          (unquoteText fuel read.2).map fun tail => (read.1 :: tail.1, tail.2)
  | _, _ => none

private theorem unquoteText_step (fuel : Nat) (quoted : Text) (unit : CodeUnit) (after : Text)
    (starts : quoted.head? ≠ some 34) (read : unquoteUnit quoted = some (unit, after)) :
    unquoteText (fuel + 1) quoted =
      (unquoteText fuel after).map fun tail => (unit :: tail.1, tail.2) := by
  cases quoted with
  | nil => cases read
  | cons first others =>
      have notQuote : first ≠ 34 := fun same => starts (congrArg some same)
      rw [unquoteText, if_neg notQuote, read]
      rfl

private theorem unquoteUnit_surrogate (unit : CodeUnit) (rest : Text) (high : 0xd800 ≤ unit.toNat) :
    (unit :: rest).head? ≠ some 34 ∧ unquoteUnit (unit :: rest) = some (unit, rest) := by
  have notQuote : unit ≠ 34 := fun same => absurd high (by rw [same]; decide)
  have notSlash : unit ≠ 92 := fun same => absurd high (by rw [same]; decide)
  refine ⟨fun same => notQuote (Option.some.inj same), ?_⟩
  unfold unquoteUnit
  split <;> simp_all

private theorem unquoteText_quoteUnit (fuel : Nat) (unit : CodeUnit) (after : Text) :
    unquoteText (fuel + 1) (quoteUnit unit ++ after) =
      (unquoteText fuel after).map fun tail => (unit :: tail.1, tail.2) := by
  obtain ⟨first, others, quoted, notQuote⟩ := quoteUnit_shape unit
  refine unquoteText_step fuel _ unit after ?_ (unquoteUnit_quoteUnit unit after)
  rw [quoted]
  exact fun same => notQuote (Option.some.inj same)

private theorem unquoteText_quoteText (value rest : Text) :
    ∀ fuel, value.length < fuel →
      unquoteText fuel (quoteText value ++ 34 :: rest) = some (value, rest) := by
  fun_induction quoteText value with
  | case1 =>
      intro fuel enough
      obtain ⟨fuel, rfl⟩ := Nat.exists_eq_succ_of_ne_zero (Nat.ne_of_gt enough)
      rfl
  | case2 high low others paired ih =>
      intro fuel enough
      simp only [List.length_cons] at enough
      obtain ⟨fuel, rfl⟩ : ∃ less, fuel = less + 1 + 1 := ⟨fuel - 2, by omega⟩
      have ranges := paired
      simp only [isHighSurrogate, isLowSurrogate, Bool.and_eq_true, decide_eq_true_eq] at ranges
      obtain ⟨highStarts, highRead⟩ :=
        unquoteUnit_surrogate high (low :: (quoteText others ++ 34 :: rest)) ranges.1.1
      obtain ⟨lowStarts, lowRead⟩ :=
        unquoteUnit_surrogate low (quoteText others ++ 34 :: rest) (by omega)
      rw [List.cons_append, List.cons_append, unquoteText_step _ _ _ _ highStarts highRead,
        unquoteText_step _ _ _ _ lowStarts lowRead, ih fuel (by omega)]
      rfl
  | case3 high low others unpaired ih =>
      intro fuel enough
      rw [List.length_cons] at enough
      obtain ⟨fuel, rfl⟩ : ∃ less, fuel = less + 1 := ⟨fuel - 1, by omega⟩
      rw [List.append_assoc, unquoteText_quoteUnit, ih fuel (by omega)]
      rfl
  | case4 unit =>
      intro fuel enough
      rw [List.length_singleton] at enough
      obtain ⟨fuel, rfl⟩ : ∃ less, fuel = less + 1 + 1 := ⟨fuel - 2, by omega⟩
      rw [unquoteText_quoteUnit]
      rfl

/-- A string's text ends where its last quote stands. -/
theorem stringifyText_append_inj (left right rest rest' : Text)
    (same : stringifyText left ++ rest = stringifyText right ++ rest') :
    left = right ∧ rest = rest' := by
  have layout : ∀ value after : Text,
      stringifyText value ++ after = 34 :: (quoteText value ++ 34 :: after) := by
    intro value after
    have quote : text "\"" = [34] := by decide
    simp [stringifyText, quote]
  rw [layout, layout] at same
  have inner := (List.cons.inj same).2
  have leftRead := unquoteText_quoteText left rest (left.length + right.length + 1) (by omega)
  have rightRead := unquoteText_quoteText right rest' (left.length + right.length + 1) (by omega)
  rw [inner, rightRead] at leftRead
  obtain ⟨values, rests⟩ := Prod.mk.inj (Option.some.inj leftRead)
  exact ⟨values.symm, rests.symm⟩

/-! ## An array of strings -/

private theorem joinText_cons (separator part : Text) (others : List Text) :
    joinText separator (part :: others) = part ++ match others with
      | [] => []
      | _ :: _ => separator ++ joinText separator others := by
  cases others with
  | nil => exact (List.append_nil part).symm
  | cons second others => exact List.append_assoc part separator _

private theorem joinedTexts_inj (left right : List Text)
    (same : joinText [44] (left.map stringifyText) ++ [93] =
      joinText [44] (right.map stringifyText) ++ [93]) : left = right := by
  induction left generalizing right with
  | nil =>
      cases right with
      | nil => rfl
      | cons value others =>
          rw [List.map_cons, joinText_cons] at same
          exact absurd (List.cons.inj same).1 (by decide)
  | cons value others ih =>
      cases right with
      | nil =>
          rw [List.map_cons, joinText_cons] at same
          exact absurd (List.cons.inj same).1 (by decide)
      | cons value' others' =>
          rw [List.map_cons, List.map_cons, joinText_cons, joinText_cons, List.append_assoc,
            List.append_assoc] at same
          obtain ⟨values, rests⟩ := stringifyText_append_inj _ _ _ _ same
          cases others with
          | nil =>
              cases others' with
              | nil => rw [values]
              | cons second others' => exact absurd (List.cons.inj rests).1 (by decide)
          | cons second others =>
              cases others' with
              | nil => exact absurd (List.cons.inj rests).1 (by decide)
              | cons second' others' => rw [values, ih _ (List.cons.inj rests).2]

theorem stringifyTexts_inj (left right : List Text)
    (same : stringifyTexts left = stringifyTexts right) : left = right := by
  have comma : text "," = [44] := by decide
  have close : text "]" = [93] := by decide
  unfold stringifyTexts at same
  rw [comma, close, List.append_assoc, List.append_assoc] at same
  exact joinedTexts_inj left right (List.append_cancel_left same)

/-! ## Its bytes -/

private theorem quoteUnit_toWellFormed (unit : CodeUnit) (rest : Text) :
    toWellFormed (quoteUnit unit ++ rest) = quoteUnit unit ++ toWellFormed rest := by
  have written := quotedAs_quoteUnit unit
  generalize quoteUnit unit = quoted at written
  cases written with
  | escaped letter pair =>
      refine toWellFormed_append_basic _ rest fun written member => ?_
      simp only [List.mem_cons, Prod.mk.injEq, List.not_mem_nil, or_false] at pair member
      rcases member with here | here
      · rw [here]
        decide
      · rcases pair with ⟨_, is⟩ | ⟨_, is⟩ | ⟨_, is⟩ | ⟨_, is⟩ | ⟨_, is⟩ | ⟨_, is⟩ | ⟨_, is⟩ <;>
          rw [here, is] <;> decide
  | hexadecimal first second third fourth digits value =>
      refine toWellFormed_append_basic _ rest fun written member => ?_
      rcases List.mem_cons.mp member with here | member
      · rw [here]
        decide
      rcases List.mem_cons.mp member with here | member
      · rw [here]
        decide
      have range := digits written member
      omega
  | plain visible notQuote notSlash notHigh notLow =>
      exact toWellFormed_cons_single unit rest notHigh notLow

private theorem quoteText_toWellFormed (value rest : Text) :
    toWellFormed (quoteText value ++ rest) = quoteText value ++ toWellFormed rest := by
  fun_induction quoteText value with
  | case1 => rfl
  | case2 high low others paired ih =>
      rw [List.cons_append, List.cons_append, toWellFormed_cons_pair high low _ paired, ih]
      rfl
  | case3 high low others unpaired ih =>
      rw [List.append_assoc, quoteUnit_toWellFormed, ih, List.append_assoc]
  | case4 unit => exact quoteUnit_toWellFormed unit rest

private theorem stringifyText_toWellFormed (value rest : Text) :
    toWellFormed (stringifyText value ++ rest) = stringifyText value ++ toWellFormed rest := by
  have quote : ∀ unit ∈ text "\"", unit.toNat < 0xd800 := forall_mem_of_all _ _ (by decide)
  unfold stringifyText
  rw [List.append_assoc, List.append_assoc, toWellFormed_append_basic _ _ quote,
    quoteText_toWellFormed, toWellFormed_append_basic _ _ quote, List.append_assoc,
    List.append_assoc]

private theorem joinedTexts_toWellFormed (values : List Text) (rest : Text) :
    toWellFormed (joinText (text ",") (values.map stringifyText) ++ rest) =
      joinText (text ",") (values.map stringifyText) ++ toWellFormed rest := by
  have comma : ∀ unit ∈ text ",", unit.toNat < 0xd800 := forall_mem_of_all _ _ (by decide)
  induction values with
  | nil => rfl
  | cons value others ih =>
      rw [List.map_cons, joinText_cons, List.append_assoc, stringifyText_toWellFormed,
        List.append_assoc]
      cases others with
      | nil => rfl
      | cons second others =>
          rw [List.map_cons, List.append_assoc, toWellFormed_append_basic _ _ comma]
          rw [List.map_cons] at ih
          rw [ih, List.append_assoc]

theorem isWellFormed_stringifyTexts (values : List Text) :
    IsWellFormed (stringifyTexts values) := by
  have opening : ∀ unit ∈ text "[", unit.toNat < 0xd800 := forall_mem_of_all _ _ (by decide)
  have closing : toWellFormed (text "]") = text "]" := isWellFormed_text "]"
  unfold IsWellFormed stringifyTexts
  rw [List.append_assoc, toWellFormed_append_basic _ _ opening, joinedTexts_toWellFormed, closing]

private theorem zero_not_mem_quoteUnit (unit : CodeUnit) : (0 : CodeUnit) ∉ quoteUnit unit := by
  have written := quotedAs_quoteUnit unit
  generalize quoteUnit unit = quoted at written
  intro member
  cases written with
  | escaped letter pair =>
      simp only [List.mem_cons, Prod.mk.injEq, List.not_mem_nil, or_false] at pair member
      rcases member with here | here
      · exact absurd here (by decide)
      · rcases pair with ⟨_, is⟩ | ⟨_, is⟩ | ⟨_, is⟩ | ⟨_, is⟩ | ⟨_, is⟩ | ⟨_, is⟩ | ⟨_, is⟩ <;>
          exact absurd (here.trans is) (by decide)
  | hexadecimal first second third fourth digits value =>
      rcases List.mem_cons.mp member with here | member
      · exact absurd here (by decide)
      rcases List.mem_cons.mp member with here | member
      · exact absurd here (by decide)
      exact absurd (digits 0 member).1 (by decide)
  | plain visible notQuote notSlash notHigh notLow =>
      rw [← List.mem_singleton.mp member] at visible
      exact absurd visible (by decide)

private theorem zero_not_mem_quoteText (value : Text) : (0 : CodeUnit) ∉ quoteText value := by
  fun_induction quoteText value with
  | case1 => exact List.not_mem_nil
  | case2 high low others paired ih =>
      simp only [isHighSurrogate, isLowSurrogate, Bool.and_eq_true, decide_eq_true_eq] at paired
      intro member
      rcases List.mem_cons.mp member with here | member
      · rw [← here] at paired
        exact absurd paired.1.1 (by decide)
      rcases List.mem_cons.mp member with here | member
      · rw [← here] at paired
        exact absurd paired.2.1 (by decide)
      exact ih member
  | case3 high low others unpaired ih =>
      intro member
      rcases List.mem_append.mp member with here | later
      · exact zero_not_mem_quoteUnit high here
      · exact ih later
  | case4 unit => exact zero_not_mem_quoteUnit unit

theorem zero_not_mem_stringifyTexts (values : List Text) :
    (0 : CodeUnit) ∉ stringifyTexts values := by
  have one : ∀ value : Text, (0 : CodeUnit) ∉ stringifyText value := by
    intro value member
    unfold stringifyText at member
    rcases List.mem_append.mp member with member | closing
    · rcases List.mem_append.mp member with opening | inside
      · exact absurd opening (by decide)
      · exact zero_not_mem_quoteText value inside
    · exact absurd closing (by decide)
  have joined : (0 : CodeUnit) ∉ joinText (text ",") (values.map stringifyText) := by
    induction values with
    | nil => exact List.not_mem_nil
    | cons value others ih =>
        rw [List.map_cons, joinText_cons]
        intro member
        rcases List.mem_append.mp member with here | later
        · exact one value here
        · cases others with
          | nil => cases later
          | cons second others =>
              rcases List.mem_append.mp later with comma | rest
              · exact absurd comma (by decide)
              · exact ih rest
  intro member
  unfold stringifyTexts at member
  rcases List.mem_append.mp member with member | closing
  · rcases List.mem_append.mp member with opening | inside
    · exact absurd opening (by decide)
    · exact joined inside
  · exact absurd closing (by decide)

/-! ## Arrays -/

inductive JsonArray where
  | string (value : Text)
  | bool (value : Bool)
  | array (items : List JsonArray)

namespace JsonArray

mutual

/-- `JSON.stringify(value)`. -/
def stringify : JsonArray → Text
  | .string value => stringifyText value
  | .bool value => if value then text "true" else text "false"
  | .array items => text "[" ++ stringifyItems items ++ text "]"

def stringifyItems : List JsonArray → Text
  | [] => []
  | [item] => stringify item
  | item :: rest => stringify item ++ text "," ++ stringifyItems rest

end

/-- What stands behind the first item. -/
private def behindFirst : List JsonArray → Text
  | [] => []
  | item :: rest => 0x2c :: stringifyItems (item :: rest)

private theorem stringifyItems_cons (item : JsonArray) (rest : List JsonArray) :
    stringifyItems (item :: rest) = stringify item ++ behindFirst rest := by
  cases rest with
  | nil => exact (List.append_nil _).symm
  | cons second others =>
      rw [stringifyItems, List.append_assoc]
      · rfl
      · exact List.cons_ne_nil second others

private theorem quote_first (value : Text) : ∃ rest, stringifyText value = 0x22 :: rest := by
  have quote : text "\"" = [0x22] := by decide
  exact ⟨quoteText value ++ [0x22], by simp [stringifyText, quote]⟩

/-- The first unit of a text tells what is written. -/
private def firstUnit : JsonArray → CodeUnit
  | .string _ => 0x22
  | .bool value => if value then 0x74 else 0x66
  | .array _ => 0x5b

private theorem stringify_first (value : JsonArray) :
    ∃ rest, stringify value = firstUnit value :: rest := by
  cases value with
  | string value => exact quote_first value
  | bool value => cases value <;> exact ⟨_, rfl⟩
  | array items => exact ⟨_, rfl⟩

private theorem same_first (left right : JsonArray) (rest rest' : Text)
    (same : stringify left ++ rest = stringify right ++ rest') :
    firstUnit left = firstUnit right := by
  obtain ⟨_, leftEq⟩ := stringify_first left
  obtain ⟨_, rightEq⟩ := stringify_first right
  rw [leftEq, rightEq] at same
  exact (List.cons.inj same).1

/-- No item begins as an array ends. -/
private theorem bracket_not_first (value : JsonArray) (rest rest' : Text) :
    stringify value ++ rest ≠ 0x5d :: rest' := by
  intro same
  obtain ⟨_, first⟩ := stringify_first value
  rw [first] at same
  have unit := (List.cons.inj same).1
  cases value with
  | string value => exact absurd unit (by simp [firstUnit])
  | bool value => cases value <;> exact absurd unit (by simp [firstUnit])
  | array items => exact absurd unit (by simp [firstUnit])

mutual

theorem stringify_append_inj : (left right : JsonArray) → (rest rest' : Text) →
    stringify left ++ rest = stringify right ++ rest' → left = right ∧ rest = rest'
  | .string left, right, rest, rest', same => by
      have first := same_first _ _ rest rest' same
      cases right with
      | string right =>
          obtain ⟨values, rests⟩ := stringifyText_append_inj left right rest rest' same
          exact ⟨congrArg _ values, rests⟩
      | bool right => cases right <;> cases first
      | array items => cases first
  | .bool left, right, rest, rest', same => by
      have first := same_first _ _ rest rest' same
      cases right with
      | string right => cases left <;> cases first
      | bool right =>
          cases left <;> cases right
          · exact ⟨rfl, List.append_cancel_left same⟩
          · cases first
          · cases first
          · exact ⟨rfl, List.append_cancel_left same⟩
      | array items => cases left <;> cases first
  | .array left, right, rest, rest', same => by
      have first := same_first _ _ rest rest' same
      cases right with
      | string right => cases first
      | bool right => cases right <;> cases first
      | array right =>
          have inner := (List.cons.inj same).2
          have inside : stringifyItems left ++ 0x5d :: rest = stringifyItems right ++ 0x5d :: rest' :=
            (List.append_assoc _ _ _).symm.trans (inner.trans (List.append_assoc _ _ _))
          obtain ⟨items, rests⟩ := stringifyItems_append_inj left right rest rest' inside
          exact ⟨congrArg _ items, rests⟩

theorem stringifyItems_append_inj : (left right : List JsonArray) → (rest rest' : Text) →
    stringifyItems left ++ 0x5d :: rest = stringifyItems right ++ 0x5d :: rest' →
      left = right ∧ rest = rest'
  | [], [], rest, rest', same => ⟨rfl, (List.cons.inj same).2⟩
  | [], item :: others, rest, rest', same => by
      rw [stringifyItems_cons, List.append_assoc] at same
      exact absurd same.symm (bracket_not_first item _ _)
  | item :: others, [], rest, rest', same => by
      rw [stringifyItems_cons, List.append_assoc] at same
      exact absurd same (bracket_not_first item _ _)
  | item :: others, item' :: others', rest, rest', same => by
      rw [stringifyItems_cons, stringifyItems_cons, List.append_assoc, List.append_assoc] at same
      obtain ⟨rfl, behind⟩ := stringify_append_inj item item' _ _ same
      cases others with
      | nil =>
          cases others' with
          | nil => exact ⟨rfl, (List.cons.inj behind).2⟩
          | cons second others' => exact absurd (List.cons.inj behind).1 (by decide)
      | cons second others =>
          cases others' with
          | nil => exact absurd (List.cons.inj behind).1 (by decide)
          | cons second' others' =>
              obtain ⟨items, rests⟩ := stringifyItems_append_inj (second :: others)
                (second' :: others') rest rest' (List.cons.inj behind).2
              exact ⟨by rw [items], rests⟩

end

theorem stringify_inj (left right : JsonArray) (same : stringify left = stringify right) :
    left = right :=
  (stringify_append_inj left right [] [] (congrArg (· ++ []) same)).1

end JsonArray

end VgiWorker.Js
