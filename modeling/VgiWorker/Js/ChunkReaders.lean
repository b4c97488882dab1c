import VgiWorker.Data.SelfDelimiting
import VgiWorker.Js.Bytes

/-!
# Integers and chunks delimit themselves

A little-endian integer of known width, a length-prefixed chunk and a row of
chunks, each read by the take function for it.
-/

set_option autoImplicit false

namespace VgiWorker.Js

open VgiWorker.SelfDelimiting

variable {Failure Value : Type}

/-- A take function that throws where it finds too little. -/
def orThrow (failure : Failure) (take : Bytes → Option (Value × Bytes)) :
    Reader UInt8 Failure Value := fun bytes =>
  match take bytes with
  | some taken => .ok taken
  | none => .error failure

theorem orThrow_some (failure : Failure) (take : Bytes → Option (Value × Bytes)) (bytes : Bytes)
    (taken : Value × Bytes) (found : take bytes = some taken) :
    orThrow failure take bytes = .ok taken := by
  rw [orThrow, found]

theorem orThrow_none (failure : Failure) (take : Bytes → Option (Value × Bytes)) (bytes : Bytes)
    (missing : take bytes = none) : Refuses (orThrow failure take bytes) :=
  ⟨failure, by rw [orThrow, missing]⟩

theorem length_lt_of_cut (kept code : Bytes) (isPrefix : kept <+: code) (shorter : kept ≠ code) :
    kept.length < code.length :=
  Nat.lt_of_le_of_ne isPrefix.length_le fun same => shorter (isPrefix.eq_of_length same)

theorem takeBytes_short (count : Nat) (bytes : Bytes) (short : bytes.length < count) :
    takeBytes count bytes = none :=
  if_pos short

theorem takeInt_short (width : Nat) (bytes : Bytes) (short : bytes.length < width) :
    takeInt width bytes = none := by
  rw [takeInt, takeBytes_short width bytes short]
  rfl

theorem delimits_takeInt (failure : Failure) (width value : Nat) (bound : value < 256 ^ width) :
    Delimits (orThrow failure (takeInt width)) (leBytes width value) value where
  reads := fun rest => orThrow_some _ _ _ _ (takeInt_leBytes_of_lt width value rest bound)
  cut := fun kept isPrefix shorter => by
    have short := length_lt_of_cut kept _ isPrefix shorter
    rw [length_leBytes] at short
    exact orThrow_none _ _ _ (takeInt_short width kept short)

theorem delimits_takeChunk (failure : Failure) (width : Nat) (chunk : Bytes)
    (bound : chunk.length < 256 ^ width) :
    Delimits (orThrow failure (takeChunk width)) (putChunk width chunk) chunk where
  reads := fun rest => orThrow_some _ _ _ _ (takeChunk_putChunk width chunk rest bound)
  cut := fun kept isPrefix shorter => by
    apply orThrow_none
    rcases cut_append kept (leBytes width chunk.length) chunk isPrefix shorter with
      ⟨within, shorter⟩ | ⟨rest, rfl, restPrefix, restShorter⟩
    · have short := length_lt_of_cut kept _ within shorter
      rw [length_leBytes] at short
      rw [takeChunk, takeInt_short width kept short]
      rfl
    · have length := takeInt_leBytes_of_lt width chunk.length rest bound
      have short := takeBytes_short chunk.length rest
        (length_lt_of_cut rest chunk restPrefix restShorter)
      rw [takeChunk, length]
      exact short

theorem orThrow_takeChunks (failure : Failure) (width count : Nat) :
    orThrow failure (takeChunks width count) =
      repeated (orThrow failure (takeChunk width)) count := by
  induction count with
  | zero => rfl
  | succ count ih =>
      funext bytes
      rw [repeated, ← ih, andThen, orThrow, orThrow, takeChunks]
      cases takeChunk width bytes with
      | none => rfl
      | some taken =>
          simp only [Option.bind_eq_bind, Option.bind_some, except_ok_bind, andThen, orThrow, done]
          cases takeChunks width count taken.2 <;> rfl

theorem delimits_takeChunks (failure : Failure) (width : Nat) (chunks : List Bytes)
    (bound : ∀ chunk ∈ chunks, chunk.length < 256 ^ width) :
    Delimits (orThrow failure (takeChunks width chunks.length)) (chunks.flatMap (putChunk width))
      chunks := by
  rw [orThrow_takeChunks]
  exact delimits_repeated _ _ chunks fun chunk member =>
    delimits_takeChunk failure width chunk (bound chunk member)

end VgiWorker.Js
