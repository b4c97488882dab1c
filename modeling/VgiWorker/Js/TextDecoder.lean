import VgiWorker.Js.Text

/-!
# The lenient text decoder

`new TextDecoder()`: each ill-formed part of the input becomes U+FFFD. What
`TextEncoder` wrote has no such part.
-/

set_option autoImplicit false

namespace VgiWorker.Js

/-- A sequence whose first bytes were read: how many are missing, the bits so far, and the
range of the next byte. -/
structure Pending where
  needed : Nat
  point : Nat
  lower : Nat
  upper : Nat

def replacement : Char := Char.ofNat 0xfffd

/-- What the first byte of a sequence writes, and the sequence it leaves open. -/
def startSequence (byte : UInt8) : List Char × Option Pending :=
  let value := byte.toNat
  if value ≤ 0x7f then ([Char.ofNat value], none)
  else if 0xc2 ≤ value ∧ value ≤ 0xdf then ([], some ⟨1, value - 0xc0, 0x80, 0xbf⟩)
  else if 0xe0 ≤ value ∧ value ≤ 0xef then
    ([], some ⟨2, value - 0xe0, if value = 0xe0 then 0xa0 else 0x80,
      if value = 0xed then 0x9f else 0xbf⟩)
  else if 0xf0 ≤ value ∧ value ≤ 0xf4 then
    ([], some ⟨3, value - 0xf0, if value = 0xf0 then 0x90 else 0x80,
      if value = 0xf4 then 0x8f else 0xbf⟩)
  else ([replacement], none)

def decodeScalars : Option Pending → Bytes → List Char
  | none, [] => []
  | some _, [] => [replacement]
  | none, byte :: rest => (startSequence byte).1 ++ decodeScalars (startSequence byte).2 rest
  | some sequence, byte :: rest =>
      if sequence.lower ≤ byte.toNat ∧ byte.toNat ≤ sequence.upper then
        let point := sequence.point * 64 + byte.toNat % 64
        if sequence.needed ≤ 1 then Char.ofNat point :: decodeScalars none rest
        else decodeScalars (some ⟨sequence.needed - 1, point, 0x80, 0xbf⟩) rest
      else
        -- The byte ends the sequence and is read again as the first of another.
        replacement :: (startSequence byte).1 ++ decodeScalars (startSequence byte).2 rest

/-- `new TextDecoder().decode(bytes)`. -/
def textDecode (bytes : Bytes) : Text :=
  dropBom (ofScalars (decodeScalars none bytes))

private theorem toNat_byte (value : Nat) (bound : value < 256) : (UInt8.ofNat value).toNat = value := by
  rw [UInt8.toNat_ofNat', Nat.mod_eq_of_lt bound]

private theorem decodeScalars_last (point value : Nat) (rest : Bytes) (bound : value < 64) :
    decodeScalars (some ⟨1, point, 0x80, 0xbf⟩) (UInt8.ofNat (value + 0x80) :: rest) =
      Char.ofNat (point * 64 + value) :: decodeScalars none rest := by
  have byte := toNat_byte (value + 0x80) (by omega)
  have low : (value + 0x80) % 64 = value := by omega
  rw [decodeScalars, byte, if_pos (by simp only; omega)]
  simp only [Nat.le_refl, if_true, low]

private theorem decodeScalars_middle (needed point lower upper value : Nat) (rest : Bytes)
    (bound : value < 64) (range : lower ≤ value + 0x80 ∧ value + 0x80 ≤ upper) (more : 1 < needed) :
    decodeScalars (some ⟨needed, point, lower, upper⟩) (UInt8.ofNat (value + 0x80) :: rest) =
      decodeScalars (some ⟨needed - 1, point * 64 + value, 0x80, 0xbf⟩) rest := by
  have byte := toNat_byte (value + 0x80) (by omega)
  have low : (value + 0x80) % 64 = value := by omega
  rw [decodeScalars, byte, if_pos range]
  simp only [if_neg (Nat.not_le.mpr more), low]

theorem decodeScalars_utf8EncodeChar (scalar : Char) (rest : Bytes) :
    decodeScalars none (String.utf8EncodeChar scalar ++ rest) =
      scalar :: decodeScalars none rest := by
  have value : Char.ofNat scalar.val.toNat = scalar := Char.ofNat_toNat scalar
  have valid : scalar.val.toNat < 0xd800 ∨
      (0xdfff < scalar.val.toNat ∧ scalar.val.toNat < 0x110000) := scalar.valid
  unfold String.utf8EncodeChar
  generalize scalar.val.toNat = point at value valid ⊢
  dsimp only
  split
  · rename_i ascii
    rw [List.cons_append, List.nil_append, decodeScalars, startSequence, toNat_byte _ (by omega)]
    simp only [if_pos ascii, value]
    rfl
  · split
    · rename_i large small
      have first := toNat_byte (point / 64 % 0x20 + 0xc0) (by omega)
      have lead : startSequence (UInt8.ofNat (point / 64 % 0x20 + 0xc0)) =
          ([], some ⟨1, point / 64, 0x80, 0xbf⟩) := by
        have bits : point / 64 % 0x20 + 0xc0 - 0xc0 = point / 64 := by omega
        simp only [startSequence, first, bits]
        rw [if_neg (by omega), if_pos (by omega)]
      have whole : point / 64 * 64 + point % 64 = point := by omega
      rw [List.cons_append, decodeScalars, lead, List.nil_append, List.cons_append,
        decodeScalars_last _ _ _ (by omega), whole, value]
      rfl
    · split
      · rename_i _ large small
        have first := toNat_byte (point / 4096 % 0x10 + 0xe0) (by omega)
        have lead : startSequence (UInt8.ofNat (point / 4096 % 0x10 + 0xe0)) =
            ([], some ⟨2, point / 4096, if point / 4096 % 0x10 + 0xe0 = 0xe0 then 0xa0 else 0x80,
              if point / 4096 % 0x10 + 0xe0 = 0xed then 0x9f else 0xbf⟩) := by
          have bits : point / 4096 % 0x10 + 0xe0 - 0xe0 = point / 4096 := by omega
          simp only [startSequence, first, bits]
          rw [if_neg (by omega), if_neg (by omega), if_pos (by omega)]
        have whole : (point / 4096 * 64 + point / 64 % 64) * 64 + point % 64 = point := by omega
        rw [List.cons_append, decodeScalars, lead, List.nil_append, List.cons_append,
          decodeScalars_middle _ _ _ _ _ _ (by omega) (by split <;> split <;> omega) (by omega),
          List.cons_append, decodeScalars_last _ _ _ (by omega), whole, value]
        rfl
      · rename_i _ _ large
        have first := toNat_byte (point / 262144 % 0x08 + 0xf0) (by omega)
        have lead : startSequence (UInt8.ofNat (point / 262144 % 0x08 + 0xf0)) =
            ([], some ⟨3, point / 262144, if point / 262144 % 0x08 + 0xf0 = 0xf0 then 0x90 else 0x80,
              if point / 262144 % 0x08 + 0xf0 = 0xf4 then 0x8f else 0xbf⟩) := by
          have bits : point / 262144 % 0x08 + 0xf0 - 0xf0 = point / 262144 := by omega
          simp only [startSequence, first, bits]
          rw [if_neg (by omega), if_neg (by omega), if_neg (by omega), if_pos (by omega)]
        have whole : ((point / 262144 * 64 + point / 4096 % 64) * 64 + point / 64 % 64) * 64 +
            point % 64 = point := by omega
        rw [List.cons_append, decodeScalars, lead, List.nil_append, List.cons_append,
          decodeScalars_middle _ _ _ _ _ _ (by omega) (by split <;> split <;> omega) (by omega),
          List.cons_append, decodeScalars_middle _ _ _ _ _ _ (by omega) (by omega) (by omega),
          List.cons_append, decodeScalars_last _ _ _ (by omega), whole, value]
        rfl

/-- On what `TextEncoder` wrote the lenient decoder agrees with the strict one. -/
theorem textDecode_utf8Encode (string : Text) :
    textDecode (utf8Encode string) = dropBom (toWellFormed string) := by
  have scalars : ∀ scalars : List Char,
      decodeScalars none (scalars.flatMap String.utf8EncodeChar) = scalars := by
    intro scalars
    induction scalars with
    | nil => rfl
    | cons scalar rest ih => rw [List.flatMap_cons, decodeScalars_utf8EncodeChar, ih]
  rw [textDecode, utf8Encode, scalars]
  rfl

end VgiWorker.Js
