import VgiWorker.Js.Bytes

/-!
# Base64

Three bytes are four sextets; a last one or two bytes are two or three sextets
whose unused low bits an encoder leaves zero. Unpadded base64url first, then the
padded alphabet of `btoa` and `atob`.
-/

set_option autoImplicit false

namespace VgiWorker.Js

/-- The letter of a sextet. -/
def sextetUnit (sextet : Nat) : CodeUnit :=
  UInt16.ofNat
    (if sextet < 26 then 65 + sextet
    else if sextet < 52 then 71 + sextet
    else if sextet < 62 then sextet - 4
    else if sextet = 62 then 45
    else 95)

def sextetOf? (unit : CodeUnit) : Option Nat :=
  let code := unit.toNat
  if 65 ≤ code ∧ code ≤ 90 then some (code - 65)
  else if 97 ≤ code ∧ code ≤ 122 then some (code - 71)
  else if 48 ≤ code ∧ code ≤ 57 then some (code + 4)
  else if code = 45 then some 62
  else if code = 95 then some 63
  else none

def sextetsOf : Bytes → List Nat
  | first :: second :: third :: rest =>
      first.toNat / 4 :: (first.toNat % 4 * 16 + second.toNat / 16) ::
        (second.toNat % 16 * 4 + third.toNat / 64) :: third.toNat % 64 :: sextetsOf rest
  | [first, second] =>
      [first.toNat / 4, first.toNat % 4 * 16 + second.toNat / 16, second.toNat % 16 * 4]
  | [first] => [first.toNat / 4, first.toNat % 4 * 16]
  | [] => []

/-- What `atob` reads; it ignores the unused low bits. -/
def bytesOfSextets : List Nat → Bytes
  | first :: second :: third :: fourth :: rest =>
      UInt8.ofNat (first * 4 + second / 16) :: UInt8.ofNat (second % 16 * 16 + third / 4) ::
        UInt8.ofNat (third % 4 * 64 + fourth) :: bytesOfSextets rest
  | [first, second, third] =>
      [UInt8.ofNat (first * 4 + second / 16), UInt8.ofNat (second % 16 * 16 + third / 4)]
  | [first, second] => [UInt8.ofNat (first * 4 + second / 16)]
  | _ => []

def base64Url (bytes : Bytes) : Text :=
  (sextetsOf bytes).map sextetUnit

/-! ## Round trip -/

theorem sextetOf?_sextetUnit (sextet : Nat) (bound : sextet < 64) :
    sextetOf? (sextetUnit sextet) = some sextet := by
  have every : ∀ value : Fin 64, sextetOf? (sextetUnit value) = some value.val := by decide
  exact every ⟨sextet, bound⟩

private theorem ofNat_eq (byte : UInt8) (value : Nat) (same : value = byte.toNat) :
    UInt8.ofNat value = byte := by
  rw [same]
  exact UInt8.ofNat_toNat

theorem bytesOfSextets_sextetsOf (bytes : Bytes) : bytesOfSextets (sextetsOf bytes) = bytes := by
  fun_induction sextetsOf bytes with
  | case1 first second third rest ih =>
      have secondLt := second.toNat_lt
      have thirdLt := third.toNat_lt
      rw [bytesOfSextets, ih, ofNat_eq first _ (by omega), ofNat_eq second _ (by omega),
        ofNat_eq third _ (by omega)]
  | case2 first second =>
      have secondLt := second.toNat_lt
      rw [bytesOfSextets, ofNat_eq first _ (by omega), ofNat_eq second _ (by omega)]
  | case3 first => rw [bytesOfSextets, ofNat_eq first _ (by omega)]
  | case4 => rfl

theorem sextetsOf_lt (bytes : Bytes) (sextet : Nat) (member : sextet ∈ sextetsOf bytes) :
    sextet < 64 := by
  fun_induction sextetsOf bytes with
  | case1 first second third rest ih =>
      have firstLt := first.toNat_lt
      have secondLt := second.toNat_lt
      have thirdLt := third.toNat_lt
      simp only [List.mem_cons] at member
      rcases member with rfl | rfl | rfl | rfl | later
      · omega
      · omega
      · omega
      · omega
      · exact ih later
  | case2 first second =>
      have firstLt := first.toNat_lt
      have secondLt := second.toNat_lt
      simp only [List.mem_cons, List.not_mem_nil, or_false] at member
      omega
  | case3 first =>
      have firstLt := first.toNat_lt
      simp only [List.mem_cons, List.not_mem_nil, or_false] at member
      omega
  | case4 => cases member

/-- No text of sextets has one sextet left over. -/
theorem length_sextetsOf (bytes : Bytes) : (sextetsOf bytes).length % 4 ≠ 1 := by
  fun_induction sextetsOf bytes with
  | case1 first second third rest ih =>
      simp only [List.length_cons]
      omega
  | case2 | case3 | case4 => simp

theorem sextets_of_base64Url (bytes : Bytes) :
    (base64Url bytes).mapM sextetOf? = some (sextetsOf bytes) := by
  have read : ∀ sextets : List Nat, (∀ sextet ∈ sextets, sextet < 64) →
      (sextets.map sextetUnit).mapM sextetOf? = some sextets := by
    intro sextets bounded
    induction sextets with
    | nil => rfl
    | cons sextet rest ih =>
        rw [List.map_cons, List.mapM_cons, sextetOf?_sextetUnit sextet (bounded _ List.mem_cons_self),
          ih fun other member => bounded other (List.mem_cons_of_mem _ member)]
        rfl
  exact read _ (sextetsOf_lt bytes)

theorem base64Url_eq_nil (bytes : Bytes) (empty : base64Url bytes = []) : bytes = [] := by
  have none : sextetsOf bytes = [] := List.map_eq_nil_iff.mp empty
  rw [← bytesOfSextets_sextetsOf bytes, none]
  rfl

/-! ## Padded -/

def standardUnit (sextet : Nat) : CodeUnit :=
  if sextet = 62 then 43 else if sextet = 63 then 47 else sextetUnit sextet

def standardSextetOf? (unit : CodeUnit) : Option Nat :=
  if unit = 43 then some 62
  else if unit = 47 then some 63
  else if unit = 45 ∨ unit = 95 then none
  else sextetOf? unit

/-- `btoa` of the binary string of the bytes. -/
def bytesToB64 (bytes : Bytes) : Text :=
  let units := (sextetsOf bytes).map standardUnit
  units ++ List.replicate ((4 - units.length % 4) % 4) 61

/-- One or two final `=` of a text of whole groups. -/
def dropPadding (units : Text) : Text :=
  if units.length % 4 ≠ 0 then units
  else if units.getLast? ≠ some 61 then units
  else if units.dropLast.getLast? ≠ some 61 then units.dropLast
  else units.dropLast.dropLast

def isAsciiWhiteSpace (unit : CodeUnit) : Bool :=
  unit = 9 || unit = 10 || unit = 12 || unit = 13 || unit = 32

/-- The bytes of `atob`, when it does not throw. -/
def b64ToBytes? (string : Text) : Option Bytes :=
  let units := dropPadding (string.filter fun unit => !isAsciiWhiteSpace unit)
  if units.length % 4 = 1 then none else (units.mapM standardSextetOf?).map bytesOfSextets

private theorem standardUnit_facts (sextet : Nat) (bound : sextet < 64) :
    standardSextetOf? (standardUnit sextet) = some sextet ∧
      isAsciiWhiteSpace (standardUnit sextet) = false ∧ standardUnit sextet ≠ 61 := by
  have every : ∀ value : Fin 64, standardSextetOf? (standardUnit value) = some value.val ∧
      isAsciiWhiteSpace (standardUnit value) = false ∧ standardUnit value ≠ 61 := by decide
  exact every ⟨sextet, bound⟩

private theorem mapM_standardSextetOf? (sextets : List Nat)
    (bounded : ∀ sextet ∈ sextets, sextet < 64) :
    (sextets.map standardUnit).mapM standardSextetOf? = some sextets := by
  induction sextets with
  | nil => rfl
  | cons sextet rest ih =>
      rw [List.map_cons, List.mapM_cons, (standardUnit_facts sextet (bounded _ List.mem_cons_self)).1,
        ih fun other member => bounded other (List.mem_cons_of_mem _ member)]
      rfl

private theorem getLast?_ne_padding (units : Text) (free : ∀ unit ∈ units, unit ≠ 61) :
    units.getLast? ≠ some 61 :=
  fun last => free 61 (List.mem_of_getLast? last) rfl

private theorem dropPadding_padded (units : Text) (free : ∀ unit ∈ units, unit ≠ 61)
    (short : units.length % 4 ≠ 1) :
    dropPadding (units ++ List.replicate ((4 - units.length % 4) % 4) 61) = units := by
  have last := getLast?_ne_padding units free
  have cases : units.length % 4 = 0 ∨ units.length % 4 = 2 ∨ units.length % 4 = 3 := by omega
  rcases cases with whole | two | three
  · rw [whole]
    simp [dropPadding, last]
  · rw [two]
    have length : (units.length + 2) % 4 = 0 := by omega
    simp [dropPadding, length, List.replicate]
  · rw [three]
    have length : (units.length + 1) % 4 = 0 := by omega
    simp [dropPadding, length, last]

theorem b64ToBytes?_bytesToB64 (bytes : Bytes) : b64ToBytes? (bytesToB64 bytes) = some bytes := by
  have bounded := sextetsOf_lt bytes
  have length := length_sextetsOf bytes
  have letters : ∀ unit ∈ (sextetsOf bytes).map standardUnit,
      isAsciiWhiteSpace unit = false ∧ unit ≠ 61 := by
    intro unit member
    obtain ⟨sextet, inside, rfl⟩ := List.mem_map.mp member
    exact (standardUnit_facts sextet (bounded sextet inside)).2
  have unspaced : (bytesToB64 bytes).filter (fun unit => !isAsciiWhiteSpace unit) =
      bytesToB64 bytes := by
    rw [List.filter_eq_self]
    intro unit member
    rcases List.mem_append.mp member with letter | padding
    · simp [(letters unit letter).1]
    · rw [(List.mem_replicate.mp padding).2]
      rfl
  have unpadded : dropPadding (bytesToB64 bytes) = (sextetsOf bytes).map standardUnit :=
    dropPadding_padded _ (fun unit member => (letters unit member).2) (by simpa using length)
  simp only [b64ToBytes?, unspaced, unpadded, List.length_map, if_neg length,
    mapM_standardSextetOf? _ bounded, Option.map_some, bytesOfSextets_sextetsOf]

theorem bytesToB64_injective (left right : Bytes) (same : bytesToB64 left = bytesToB64 right) :
    left = right := by
  have decoded := b64ToBytes?_bytesToB64 left
  rw [same, b64ToBytes?_bytesToB64 right] at decoded
  exact (Option.some.inj decoded).symm

@[simp] theorem bytesToB64_nil : bytesToB64 [] = [] := rfl

theorem bytesToB64_eq_nil_iff (bytes : Bytes) : bytesToB64 bytes = [] ↔ bytes = [] :=
  ⟨fun empty => bytesToB64_injective bytes [] empty, fun empty => by rw [empty]; rfl⟩

end VgiWorker.Js
