import Mathlib.Algebra.Group.Nat.Defs
import VgiWorker.Js.Text

/-!
# Little-endian integers and length-prefixed chunks

`DataView` integers of a given width, and byte strings behind a length field of
a given width.
-/

set_option autoImplicit false

namespace VgiWorker.Js

/-- The low `width` bytes of `value`, least significant first. -/
def leBytes : Nat → Nat → Bytes
  | 0, _ => []
  | width + 1, value => UInt8.ofNat value :: leBytes width (value / 256)

def leValue : Bytes → Nat
  | [] => 0
  | byte :: rest => byte.toNat + 256 * leValue rest

@[simp] theorem length_leBytes (width value : Nat) : (leBytes width value).length = width := by
  induction width generalizing value with
  | zero => rfl
  | succ width ih => simp [leBytes, ih]

theorem leValue_leBytes (width value : Nat) :
    leValue (leBytes width value) = value % 256 ^ width := by
  induction width generalizing value with
  | zero => simp [leBytes, leValue, Nat.mod_one]
  | succ width ih =>
      have step : value % 256 ^ (width + 1) = value % 256 + 256 * (value / 256 % 256 ^ width) := by
        rw [Nat.pow_succ', Nat.mod_mul]
      simp [leBytes, leValue, ih, step]

theorem leValue_leBytes_of_lt (width value : Nat) (bound : value < 256 ^ width) :
    leValue (leBytes width value) = value := by
  rw [leValue_leBytes, Nat.mod_eq_of_lt bound]

theorem leValue_lt (bytes : Bytes) : leValue bytes < 256 ^ bytes.length := by
  induction bytes with
  | nil => simp [leValue]
  | cons byte rest ih =>
      have low := byte.toNat_lt
      rw [leValue, List.length_cons, Nat.pow_succ']
      omega

theorem leBytes_leValue (bytes : Bytes) : leBytes bytes.length (leValue bytes) = bytes := by
  induction bytes with
  | nil => rfl
  | cons byte rest ih =>
      have low := byte.toNat_lt
      have quotient : (byte.toNat + 256 * leValue rest) / 256 = leValue rest := by omega
      have first : UInt8.ofNat (byte.toNat + 256 * leValue rest) = byte := by
        apply UInt8.toNat.inj
        rw [UInt8.toNat_ofNat']
        omega
      rw [List.length_cons, leValue, leBytes, quotient, first, ih]

/-! ## Taking bytes off the front -/

/-- The first `count` bytes with the rest, when there are that many. -/
def takeBytes (count : Nat) (bytes : Bytes) : Option (Bytes × Bytes) :=
  if bytes.length < count then none else some (bytes.take count, bytes.drop count)

theorem takeBytes_append (chunk rest : Bytes) :
    takeBytes chunk.length (chunk ++ rest) = some (chunk, rest) := by
  simp [takeBytes]

def takeInt (width : Nat) (bytes : Bytes) : Option (Nat × Bytes) :=
  (takeBytes width bytes).map fun taken => (leValue taken.1, taken.2)

theorem takeInt_leBytes (width value : Nat) (rest : Bytes) :
    takeInt width (leBytes width value ++ rest) = some (value % 256 ^ width, rest) := by
  have taken := takeBytes_append (leBytes width value) rest
  rw [length_leBytes] at taken
  simp [takeInt, taken, leValue_leBytes]

theorem takeInt_leBytes_of_lt (width value : Nat) (rest : Bytes) (bound : value < 256 ^ width) :
    takeInt width (leBytes width value ++ rest) = some (value, rest) := by
  rw [takeInt_leBytes, Nat.mod_eq_of_lt bound]

/-! ## Length-prefixed chunks -/

def putChunk (width : Nat) (chunk : Bytes) : Bytes :=
  leBytes width chunk.length ++ chunk

def takeChunk (width : Nat) (bytes : Bytes) : Option (Bytes × Bytes) := do
  let (length, rest) ← takeInt width bytes
  takeBytes length rest

theorem takeChunk_putChunk (width : Nat) (chunk rest : Bytes)
    (bound : chunk.length < 256 ^ width) :
    takeChunk width (putChunk width chunk ++ rest) = some (chunk, rest) := by
  simp [takeChunk, putChunk, List.append_assoc, takeInt_leBytes_of_lt width _ _ bound,
    takeBytes_append]

/-- `count` chunks in a row. -/
def takeChunks (width : Nat) : Nat → Bytes → Option (List Bytes × Bytes)
  | 0, bytes => some ([], bytes)
  | count + 1, bytes => do
      let (chunk, rest) ← takeChunk width bytes
      let (chunks, rest) ← takeChunks width count rest
      some (chunk :: chunks, rest)

theorem takeChunks_putChunks (width : Nat) (chunks : List Bytes) (rest : Bytes)
    (bound : ∀ chunk ∈ chunks, chunk.length < 256 ^ width) :
    takeChunks width chunks.length (chunks.flatMap (putChunk width) ++ rest) =
      some (chunks, rest) := by
  induction chunks with
  | nil => rfl
  | cons chunk chunks ih =>
      have first := takeChunk_putChunk width chunk (chunks.flatMap (putChunk width) ++ rest)
        (bound chunk List.mem_cons_self)
      have others := ih fun other member => bound other (List.mem_cons_of_mem _ member)
      rw [List.flatMap_cons, List.append_assoc, List.length_cons, takeChunks, first]
      simp [others]

/-! ## Hexadecimal -/

def hexDigit (value : Nat) : CodeUnit :=
  UInt16.ofNat (if value < 10 then 48 + value else 87 + value)

/-- `byte.toString(16).padStart(2, "0")`. -/
def hexByte (byte : UInt8) : Text :=
  [hexDigit (byte.toNat / 16), hexDigit (byte.toNat % 16)]

end VgiWorker.Js

/-! ## Views -/

namespace VgiWorker.Js.DataView

/-- The signed integer with a bit pattern, whose sign bit has the weight `half`. -/
def toSigned (half pattern : Nat) : Int :=
  if pattern < half then pattern else (pattern : Int) - 2 * half

def rangeError : Text :=
  text "Offset is outside the bounds of the DataView"

def getUint (width : Nat) (view : Bytes) (offset : Int) : Except Text Nat :=
  if 0 ≤ offset ∧ offset + width ≤ view.length then
    .ok (leValue ((view.drop offset.toNat).take width))
  else .error rangeError

def getUint8 (view : Bytes) (offset : Int) : Except Text Nat :=
  getUint 1 view offset

def getUint16 (view : Bytes) (offset : Int) : Except Text Nat :=
  getUint 2 view offset

def getUint32 (view : Bytes) (offset : Int) : Except Text Nat :=
  getUint 4 view offset

def getInt32 (view : Bytes) (offset : Int) : Except Text Int :=
  toSigned 0x80000000 <$> getUint 4 view offset

def getBigInt64 (view : Bytes) (offset : Int) : Except Text Int :=
  toSigned 0x8000000000000000 <$> getUint 8 view offset

/-- The view of `length` bytes from a start. -/
def subview (bytes : Bytes) (start length : Nat) : Bytes :=
  (bytes.drop start).take length

theorem getUint_subview (width : Nat) (positive : 0 < width) (bytes : Bytes) (start length : Nat)
    (offset : Int) (value : Nat)
    (success : getUint width (subview bytes start length) offset = .ok value) :
    getUint width bytes (start + offset) = .ok value := by
  unfold getUint subview at success
  split at success
  · next bounds =>
      rw [List.length_take, List.length_drop] at bounds
      have inside : 0 ≤ (start : Int) + offset ∧ start + offset + width ≤ bytes.length := by omega
      have shifted : ((start : Int) + offset).toNat = start + offset.toNat := by omega
      have enough : width ≤ length - offset.toNat := by omega
      rw [List.drop_take, List.take_take, Nat.min_eq_left enough, List.drop_drop] at success
      rw [getUint, if_pos inside, shifted]
      exact success
  · cases success

private theorem map_getUint_subview (toInt : Nat → Int) (width : Nat) (positive : 0 < width)
    (bytes : Bytes) (start length : Nat) (offset value : Int)
    (success : toInt <$> getUint width (subview bytes start length) offset = .ok value) :
    toInt <$> getUint width bytes (start + offset) = .ok value := by
  cases read : getUint width (subview bytes start length) offset with
  | error failure =>
      rw [read] at success
      cases success
  | ok pattern =>
      rw [getUint_subview width positive bytes start length offset pattern read]
      rw [read] at success
      exact success

theorem getInt32_subview (bytes : Bytes) (start length : Nat) (offset value : Int)
    (success : getInt32 (subview bytes start length) offset = .ok value) :
    getInt32 bytes (start + offset) = .ok value :=
  map_getUint_subview _ 4 (by decide) bytes start length offset value success

theorem getBigInt64_subview (bytes : Bytes) (start length : Nat) (offset value : Int)
    (success : getBigInt64 (subview bytes start length) offset = .ok value) :
    getBigInt64 bytes (start + offset) = .ok value :=
  map_getUint_subview _ 8 (by decide) bytes start length offset value success

end VgiWorker.Js.DataView
