import Mathlib.Data.List.Basic
import Mathlib.Tactic.Common

/-!
# ECMAScript strings

A string is its sequence of UTF-16 code units. The text codecs are those of
`TextEncoder` and `TextDecoder`: an unpaired surrogate is encoded as U+FFFD,
and a decoder drops one leading byte order mark unless told to keep it.
-/

set_option autoImplicit false

namespace VgiWorker.Js

abbrev CodeUnit := UInt16

abbrev Text := List CodeUnit

abbrev Bytes := List UInt8

instance : LawfulBEq Text := inferInstance

/-- The code units of one Unicode scalar value. -/
def unitsOf (scalar : Char) : Text :=
  if scalar.toNat < 0x10000 then
    [UInt16.ofNat scalar.toNat]
  else
    [UInt16.ofNat (0xd800 + (scalar.toNat - 0x10000) / 0x400),
      UInt16.ofNat (0xdc00 + (scalar.toNat - 0x10000) % 0x400)]

def ofScalars (scalars : List Char) : Text :=
  scalars.flatMap unitsOf

/-- A literal of the source. -/
def text (literal : String) : Text :=
  ofScalars literal.toList

def isHighSurrogate (unit : CodeUnit) : Bool :=
  0xd800 ≤ unit.toNat && unit.toNat < 0xdc00

def isLowSurrogate (unit : CodeUnit) : Bool :=
  0xdc00 ≤ unit.toNat && unit.toNat < 0xe000

/-- The scalar value a surrogate pair stands for. -/
def scalarOfPair (high low : CodeUnit) : Char :=
  Char.ofNat (0x10000 + (high.toNat - 0xd800) * 0x400 + (low.toNat - 0xdc00))

/-- A code unit on its own; an unpaired surrogate reads as U+FFFD. -/
def scalarOfUnit (unit : CodeUnit) : Char :=
  if isHighSurrogate unit || isLowSurrogate unit then
    Char.ofNat 0xfffd
  else
    Char.ofNat unit.toNat

def toScalars : Text → List Char
  | [] => []
  | [unit] => [scalarOfUnit unit]
  | first :: second :: rest =>
      if isHighSurrogate first && isLowSurrogate second then
        scalarOfPair first second :: toScalars rest
      else
        scalarOfUnit first :: toScalars (second :: rest)

/-- What a string iterates to: the surrogate pairs and the other code units, each a string. -/
def iterated : Text → List Text
  | [] => []
  | [unit] => [[unit]]
  | first :: second :: rest =>
      if isHighSurrogate first && isLowSurrogate second then
        [first, second] :: iterated rest
      else
        [first] :: iterated (second :: rest)

/-- `String.prototype.toWellFormed`. -/
def toWellFormed (string : Text) : Text :=
  ofScalars (toScalars string)

def IsWellFormed (string : Text) : Prop :=
  toWellFormed string = string

instance (string : Text) : Decidable (IsWellFormed string) :=
  inferInstanceAs (Decidable (toWellFormed string = string))

/-- `new TextEncoder().encode(string)`. -/
def utf8Encode (string : Text) : Bytes :=
  (toScalars string).flatMap String.utf8EncodeChar

def utf8Length (string : Text) : Nat :=
  (utf8Encode string).length

/-- `new TextDecoder("utf-8", { fatal: true, ignoreBOM: true }).decode(bytes)`. -/
def utf8DecodeKeepingBom (bytes : Bytes) : Option Text :=
  (bytes.toByteArray.utf8Decode?).map fun scalars => ofScalars scalars.toList

def dropBom : Text → Text
  | [] => []
  | first :: rest => if first = 0xfeff then rest else first :: rest

/-- `new TextDecoder("utf-8", { fatal: true }).decode(bytes)`. -/
def utf8Decode (bytes : Bytes) : Option Text :=
  (utf8DecodeKeepingBom bytes).map dropBom

/-! ## Scalar values and code units -/

theorem toNat_valid (scalar : Char) :
    scalar.toNat < 0xd800 ∨ (0xdfff < scalar.toNat ∧ scalar.toNat < 0x110000) := by
  have valid := scalar.valid
  rcases valid with low | ⟨high, bound⟩
  · exact Or.inl low
  · exact Or.inr ⟨high, bound⟩

private theorem toNat_ofNat_unit (value : Nat) (bound : value < 0x10000) :
    (UInt16.ofNat value).toNat = value := by
  simp [Nat.mod_eq_of_lt bound]

theorem unitsOf_basic (scalar : Char) (basic : scalar.toNat < 0x10000) :
    unitsOf scalar = [UInt16.ofNat scalar.toNat] := by
  simp [unitsOf, basic]

theorem unitsOf_astral (scalar : Char) (astral : ¬scalar.toNat < 0x10000) :
    unitsOf scalar =
      [UInt16.ofNat (0xd800 + (scalar.toNat - 0x10000) / 0x400),
        UInt16.ofNat (0xdc00 + (scalar.toNat - 0x10000) % 0x400)] := by
  simp [unitsOf, astral]

private theorem basic_not_surrogate (scalar : Char) (basic : scalar.toNat < 0x10000) :
    isHighSurrogate (UInt16.ofNat scalar.toNat) = false ∧
      isLowSurrogate (UInt16.ofNat scalar.toNat) = false := by
  have valid := toNat_valid scalar
  simp only [isHighSurrogate, isLowSurrogate, toNat_ofNat_unit _ basic]
  constructor <;> simp <;> omega

private theorem scalarOfUnit_basic (scalar : Char) (basic : scalar.toNat < 0x10000) :
    scalarOfUnit (UInt16.ofNat scalar.toNat) = scalar := by
  obtain ⟨notHigh, notLow⟩ := basic_not_surrogate scalar basic
  simp [scalarOfUnit, notHigh, notLow, toNat_ofNat_unit _ basic]

private theorem scalarOfPair_astral (scalar : Char) (astral : ¬scalar.toNat < 0x10000) :
    scalarOfPair (UInt16.ofNat (0xd800 + (scalar.toNat - 0x10000) / 0x400))
      (UInt16.ofNat (0xdc00 + (scalar.toNat - 0x10000) % 0x400)) = scalar := by
  have valid := toNat_valid scalar
  have split : 0x10000 + (scalar.toNat - 0x10000) / 0x400 * 0x400 +
      (scalar.toNat - 0x10000) % 0x400 = scalar.toNat := by
    omega
  unfold scalarOfPair
  rw [toNat_ofNat_unit _ (by omega), toNat_ofNat_unit _ (by omega), Nat.add_sub_cancel_left,
    Nat.add_sub_cancel_left, split]
  exact Char.ofNat_toNat scalar

private theorem astral_surrogates (scalar : Char) (astral : ¬scalar.toNat < 0x10000) :
    isHighSurrogate (UInt16.ofNat (0xd800 + (scalar.toNat - 0x10000) / 0x400)) = true ∧
      isLowSurrogate (UInt16.ofNat (0xdc00 + (scalar.toNat - 0x10000) % 0x400)) = true := by
  have valid := toNat_valid scalar
  simp only [isHighSurrogate, isLowSurrogate]
  rw [toNat_ofNat_unit _ (by omega), toNat_ofNat_unit _ (by omega)]
  constructor <;> simp <;> omega

private theorem toScalars_cons_notHigh (unit : CodeUnit) (rest : Text)
    (notHigh : isHighSurrogate unit = false) :
    toScalars (unit :: rest) = scalarOfUnit unit :: toScalars rest := by
  cases rest with
  | nil => rfl
  | cons second rest => simp [toScalars, notHigh]

private theorem toScalars_unitsOf_append (scalar : Char) (rest : Text) :
    toScalars (unitsOf scalar ++ rest) = scalar :: toScalars rest := by
  by_cases basic : scalar.toNat < 0x10000
  · rw [unitsOf_basic scalar basic, List.singleton_append,
      toScalars_cons_notHigh _ _ (basic_not_surrogate scalar basic).1,
      scalarOfUnit_basic scalar basic]
  · obtain ⟨high, low⟩ := astral_surrogates scalar basic
    rw [unitsOf_astral scalar basic, List.cons_append, List.singleton_append, toScalars, high, low,
      Bool.and_self, if_pos rfl, scalarOfPair_astral scalar basic]

@[simp] theorem toScalars_ofScalars (scalars : List Char) :
    toScalars (ofScalars scalars) = scalars := by
  induction scalars with
  | nil => rfl
  | cons scalar rest ih =>
      rw [ofScalars, List.flatMap_cons, toScalars_unitsOf_append]
      exact congrArg (scalar :: ·) ih

@[simp] theorem toWellFormed_idem (string : Text) :
    toWellFormed (toWellFormed string) = toWellFormed string := by
  simp [toWellFormed]

theorem isWellFormed_ofScalars (scalars : List Char) : IsWellFormed (ofScalars scalars) := by
  simp [IsWellFormed, toWellFormed]

theorem isWellFormed_text (literal : String) : IsWellFormed (text literal) :=
  isWellFormed_ofScalars literal.toList

private theorem toNat_charOfNat (value : Nat) (valid : value.isValidChar) :
    (Char.ofNat value).toNat = value := by
  rw [Char.ofNat, dif_pos valid]
  rfl

private theorem toNat_charOfUnit (unit : CodeUnit)
    (notSurrogate : ¬(isHighSurrogate unit || isLowSurrogate unit) = true) :
    (Char.ofNat unit.toNat).toNat = unit.toNat := by
  have unitLt := unit.toNat_lt
  simp only [isHighSurrogate, isLowSurrogate, Bool.or_eq_true, Bool.and_eq_true,
    decide_eq_true_eq] at notSurrogate
  exact toNat_charOfNat _ (by unfold Nat.isValidChar; omega)

/-- A code unit that is no surrogate stands for itself, whatever follows. -/
theorem toWellFormed_cons_single (unit : CodeUnit) (rest : Text)
    (notHigh : isHighSurrogate unit = false) (notLow : isLowSurrogate unit = false) :
    toWellFormed (unit :: rest) = unit :: toWellFormed rest := by
  have unitLt := unit.toNat_lt
  have value := toNat_charOfUnit unit (by simp [notHigh, notLow])
  have scalar : scalarOfUnit unit = Char.ofNat unit.toNat := by
    simp [scalarOfUnit, notHigh, notLow]
  have single : unitsOf (scalarOfUnit unit) = [unit] := by
    rw [scalar, unitsOf_basic _ (by omega), value, UInt16.ofNat_toNat]
  unfold toWellFormed ofScalars
  rw [toScalars_cons_notHigh unit _ notHigh, List.flatMap_cons, single]
  rfl

theorem toWellFormed_cons_basic (unit : CodeUnit) (rest : Text) (low : unit.toNat < 0xd800) :
    toWellFormed (unit :: rest) = unit :: toWellFormed rest := by
  have notHigh : isHighSurrogate unit = false := by simp [isHighSurrogate]; omega
  have notLow : isLowSurrogate unit = false := by simp [isLowSurrogate]; omega
  exact toWellFormed_cons_single unit rest notHigh notLow

/-- So do the two halves of a surrogate pair. -/
theorem toWellFormed_cons_pair (high low : CodeUnit) (rest : Text)
    (paired : (isHighSurrogate high && isLowSurrogate low) = true) :
    toWellFormed (high :: low :: rest) = high :: low :: toWellFormed rest := by
  have ranges := paired
  simp only [isHighSurrogate, isLowSurrogate, Bool.and_eq_true, decide_eq_true_eq] at ranges
  have value := toNat_charOfNat (0x10000 + (high.toNat - 0xd800) * 0x400 + (low.toNat - 0xdc00))
    (by unfold Nat.isValidChar; omega)
  have units : unitsOf (scalarOfPair high low) = [high, low] := by
    rw [scalarOfPair, unitsOf_astral _ (by omega), value]
    have highValue : 0xd800 + (0x10000 + (high.toNat - 0xd800) * 0x400 + (low.toNat - 0xdc00) -
        0x10000) / 0x400 = high.toNat := by
      omega
    have lowValue : 0xdc00 + (0x10000 + (high.toNat - 0xd800) * 0x400 + (low.toNat - 0xdc00) -
        0x10000) % 0x400 = low.toNat := by
      omega
    rw [highValue, lowValue, UInt16.ofNat_toNat, UInt16.ofNat_toNat]
  unfold toWellFormed ofScalars
  rw [toScalars, if_pos paired, List.flatMap_cons, units]
  rfl

theorem forall_mem_of_all (string : Text) (Holds : CodeUnit → Prop) [DecidablePred Holds]
    (all : string.all (fun unit => decide (Holds unit)) = true) : ∀ unit ∈ string, Holds unit :=
  fun unit member => of_decide_eq_true (List.all_eq_true.mp all unit member)

theorem toWellFormed_append_basic (start rest : Text) (basic : ∀ unit ∈ start, unit.toNat < 0xd800) :
    toWellFormed (start ++ rest) = start ++ toWellFormed rest := by
  induction start with
  | nil => rfl
  | cons unit others ih =>
      rw [List.cons_append, toWellFormed_cons_basic _ _ (basic unit List.mem_cons_self),
        ih fun other member => basic other (List.mem_cons_of_mem _ member)]
      rfl

/-- A string below the surrogates is well formed. -/
theorem isWellFormed_of_basic (string : Text) (basic : ∀ unit ∈ string, unit.toNat < 0xd800) :
    IsWellFormed string := by
  have appended := toWellFormed_append_basic string [] basic
  rw [List.append_nil] at appended
  exact appended.trans (List.append_nil string)

private theorem length_unitsOf_scalarOfUnit (unit : CodeUnit) :
    (unitsOf (scalarOfUnit unit)).length = 1 := by
  unfold scalarOfUnit
  split
  · rfl
  · rename_i notSurrogate
    have unitLt := unit.toNat_lt
    have value := toNat_charOfUnit unit notSurrogate
    rw [unitsOf_basic _ (by omega)]
    rfl

private theorem length_unitsOf_scalarOfPair (high low : CodeUnit)
    (paired : (isHighSurrogate high && isLowSurrogate low) = true) :
    (unitsOf (scalarOfPair high low)).length = 2 := by
  simp only [isHighSurrogate, isLowSurrogate, Bool.and_eq_true, decide_eq_true_eq] at paired
  have value := toNat_charOfNat (0x10000 + (high.toNat - 0xd800) * 0x400 + (low.toNat - 0xdc00))
    (by unfold Nat.isValidChar; omega)
  rw [scalarOfPair, unitsOf_astral _ (by omega)]
  rfl

theorem length_toWellFormed (string : Text) : (toWellFormed string).length = string.length := by
  unfold toWellFormed ofScalars
  fun_induction toScalars string with
  | case1 => rfl
  | case2 unit =>
      rw [List.flatMap_cons, List.length_append, length_unitsOf_scalarOfUnit]
      rfl
  | case3 first second rest paired ih =>
      rw [List.flatMap_cons, List.length_append, length_unitsOf_scalarOfPair _ _ paired, ih]
      simp only [List.length_cons]
      omega
  | case4 first second rest unpaired ih =>
      rw [List.flatMap_cons, List.length_append, length_unitsOf_scalarOfUnit, ih]
      simp only [List.length_cons]
      omega

theorem toWellFormed_eq_nil (string : Text) (empty : toWellFormed string = []) : string = [] := by
  have scalars : toScalars string = [] := by
    have read := congrArg toScalars empty
    rwa [toWellFormed, toScalars_ofScalars] at read
  fun_cases toScalars string with
  | case1 => rfl
  | case2 unit => simp [toScalars] at scalars
  | case3 first second rest paired => simp [toScalars, paired] at scalars
  | case4 first second rest unpaired => simp [toScalars, unpaired] at scalars

/-! ## The text codecs -/

/-- Decoding what was encoded gives the string back up to its unpaired
surrogates. -/
theorem utf8DecodeKeepingBom_utf8Encode (string : Text) :
    utf8DecodeKeepingBom (utf8Encode string) = some (toWellFormed string) := by
  have encoded : (utf8Encode string).toByteArray = (toScalars string).utf8Encode := rfl
  simp [utf8DecodeKeepingBom, encoded, toWellFormed]

theorem utf8Decode_utf8Encode (string : Text) :
    utf8Decode (utf8Encode string) = some (dropBom (toWellFormed string)) := by
  simp [utf8Decode, utf8DecodeKeepingBom_utf8Encode]

/-- The strings `utf8Decode` gives back as they were encoded. -/
def SurvivesUtf8 (string : Text) : Prop :=
  IsWellFormed string ∧ string.head? ≠ some 0xfeff

theorem utf8Decode_of_survives (string : Text) (survives : SurvivesUtf8 string) :
    utf8Decode (utf8Encode string) = some string := by
  obtain ⟨wellFormed, noBom⟩ := survives
  have wellFormed : toWellFormed string = string := wellFormed
  rw [utf8Decode_utf8Encode, wellFormed]
  cases string with
  | nil => rfl
  | cons first rest =>
      have notBom : first ≠ 0xfeff := fun same => noBom (congrArg some same)
      rw [dropBom, if_neg notBom]

/-- Only those strings come back as they were. -/
theorem survivesUtf8_of_decoded (string : Text) (same : dropBom (toWellFormed string) = string) :
    SurvivesUtf8 string := by
  have length := length_toWellFormed string
  cases decoded : toWellFormed string with
  | nil =>
      rw [decoded] at same
      subst same
      exact ⟨rfl, by simp [dropBom]⟩
  | cons first rest =>
      rw [decoded, dropBom] at same
      rw [decoded, List.length_cons] at length
      split at same
      · rw [same] at length
        omega
      · rename_i notBom
        subst same
        exact ⟨decoded, fun bom => notBom (Option.some.inj bom)⟩

theorem toWellFormed_of_utf8Encode (left right : Text) (same : utf8Encode left = utf8Encode right) :
    toWellFormed left = toWellFormed right := by
  have leftRead := utf8DecodeKeepingBom_utf8Encode left
  rw [same, utf8DecodeKeepingBom_utf8Encode right] at leftRead
  exact (Option.some.inj leftRead).symm

private theorem zero_mem_utf8EncodeChar (scalar : Char)
    (member : (0 : UInt8) ∈ String.utf8EncodeChar scalar) : scalar.toNat = 0 := by
  have byteZero : ∀ value : Nat, (0 : UInt8) = UInt8.ofNat value → value % 256 = 0 := by
    intro value same
    have values := congrArg UInt8.toNat same
    rw [UInt8.toNat_ofNat'] at values
    exact values.symm
  have value : scalar.val.toNat = scalar.toNat := rfl
  unfold String.utf8EncodeChar at member
  dsimp only at member
  rw [value] at member
  split at member
  · have zero := byteZero _ (List.mem_singleton.mp member)
    omega
  · split at member
    · simp only [List.mem_cons, List.not_mem_nil, or_false] at member
      rcases member with first | second
      · have zero := byteZero _ first
        omega
      · have zero := byteZero _ second
        omega
    · split at member
      · simp only [List.mem_cons, List.not_mem_nil, or_false] at member
        rcases member with first | second | third
        · have zero := byteZero _ first
          omega
        · have zero := byteZero _ second
          omega
        · have zero := byteZero _ third
          omega
      · simp only [List.mem_cons, List.not_mem_nil, or_false] at member
        rcases member with first | second | third | fourth
        · have zero := byteZero _ first
          omega
        · have zero := byteZero _ second
          omega
        · have zero := byteZero _ third
          omega
        · have zero := byteZero _ fourth
          omega

private theorem scalarOfUnit_toNat_zero (unit : CodeUnit) (zero : (scalarOfUnit unit).toNat = 0) :
    unit = 0 := by
  unfold scalarOfUnit at zero
  split at zero
  · have replacement : (Char.ofNat 0xfffd).toNat ≠ 0 := by decide +kernel
    exact absurd zero replacement
  · rename_i notSurrogate
    rw [toNat_charOfUnit unit notSurrogate] at zero
    exact UInt16.toNat.inj zero

/-- The zero byte comes from U+0000 only. -/
theorem zero_not_mem_utf8Encode (string : Text) (free : (0 : CodeUnit) ∉ string) :
    (0 : UInt8) ∉ utf8Encode string := by
  have scalars : ∀ scalar ∈ toScalars string, scalar.toNat ≠ 0 := by
    fun_induction toScalars string with
    | case1 => simp
    | case2 unit =>
        intro scalar member zero
        rw [List.mem_singleton.mp member] at zero
        exact free (scalarOfUnit_toNat_zero unit zero ▸ List.mem_cons_self)
    | case3 first second rest paired ih =>
        intro scalar member zero
        rcases List.mem_cons.mp member with here | later
        · rw [here] at zero
          have length := length_unitsOf_scalarOfPair first second paired
          have basic : (scalarOfPair first second).toNat < 0x10000 := by
            rw [zero]
            exact Nat.succ_pos 0xffff
          rw [unitsOf_basic _ basic] at length
          exact absurd length (by simp)
        · exact ih (fun here => free (List.mem_cons_of_mem _ (List.mem_cons_of_mem _ here))) scalar
            later zero
    | case4 first second rest unpaired ih =>
        intro scalar member zero
        rcases List.mem_cons.mp member with here | later
        · rw [here] at zero
          exact free (scalarOfUnit_toNat_zero first zero ▸ List.mem_cons_self)
        · exact ih (fun here => free (List.mem_cons_of_mem _ here)) scalar later zero
  intro member
  obtain ⟨scalar, scalarMem, inChar⟩ := List.mem_flatMap.mp member
  exact scalars scalar scalarMem (zero_mem_utf8EncodeChar scalar inChar)

end VgiWorker.Js
