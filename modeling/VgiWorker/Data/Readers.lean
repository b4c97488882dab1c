import VgiWorker.Data.Result

/-!
# Readers of a list

A reader takes its value from the front of a list and leaves the rest. It reads a chunk
as a value when it does so whatever follows, and it is sound for a language when all it
accepts is a chunk of the language.
-/

set_option autoImplicit false

namespace VgiWorker.Readers

variable {Token Failure α β : Type}

def ReadsAs (reader : StateT (List Token) (Except Failure) α) (chunk : List Token) (value : α) :
    Prop :=
  ∀ rest, reader (chunk ++ rest) = .ok (value, rest)

def Sound (reader : StateT (List Token) (Except Failure) α) (language : List Token → α → Prop) :
    Prop :=
  ∀ input value rest, reader input = .ok (value, rest) →
    ∃ chunk, input = chunk ++ rest ∧ language chunk value

theorem bind_ok_iff (first : StateT (List Token) (Except Failure) α)
    (next : α → StateT (List Token) (Except Failure) β) (input rest : List Token) (result : β) :
    (first >>= next) input = .ok (result, rest) ↔
      ∃ value middle, first input = .ok (value, middle) ∧
        next value middle = .ok (result, rest) := by
  change (first input >>= fun read => next read.1 read.2) = _ ↔ _
  constructor
  · intro success
    obtain ⟨⟨value, middle⟩, read, success⟩ := except_bind_ok _ _ _ success
    exact ⟨value, middle, read, success⟩
  · rintro ⟨value, middle, read, success⟩
    rw [read]
    exact success

theorem bind_of_ok (first : StateT (List Token) (Except Failure) α)
    (next : α → StateT (List Token) (Except Failure) β) (input middle : List Token) (value : α)
    (read : first input = .ok (value, middle)) : (first >>= next) input = next value middle := by
  change (first input >>= fun read => next read.1 read.2) = _
  rw [read]
  rfl

theorem readsAs_pure (value : α) :
    ReadsAs (pure value : StateT (List Token) (Except Failure) α) [] value :=
  fun _ => rfl

theorem readsAs_bind (first : StateT (List Token) (Except Failure) α)
    (next : α → StateT (List Token) (Except Failure) β) (chunk later : List Token) (value : α)
    (result : β) (here : ReadsAs first chunk value) (there : ReadsAs (next value) later result) :
    ReadsAs (first >>= next) (chunk ++ later) result := by
  intro rest
  rw [List.append_assoc, bind_of_ok _ _ _ _ _ (here _)]
  exact there rest

theorem sound_pure (value : α) :
    Sound (pure value : StateT (List Token) (Except Failure) α)
      (fun chunk result => chunk = [] ∧ result = value) := by
  intro input result rest read
  cases read
  exact ⟨[], rfl, rfl, rfl⟩

theorem sound_bind (first : StateT (List Token) (Except Failure) α)
    (next : α → StateT (List Token) (Except Failure) β) (language : List Token → α → Prop)
    (later : α → List Token → β → Prop) (here : Sound first language)
    (there : ∀ value, Sound (next value) (later value)) :
    Sound (first >>= next) (fun chunk result => ∃ front back value, chunk = front ++ back ∧
      language front value ∧ later value back result) := by
  intro input result rest read
  obtain ⟨value, middle, readFront, readBack⟩ := (bind_ok_iff _ _ _ _ _).mp read
  obtain ⟨front, rfl, isFront⟩ := here input value middle readFront
  obtain ⟨back, rfl, isBack⟩ := there value middle result rest readBack
  exact ⟨front ++ back, (List.append_assoc ..).symm, front, back, value, rfl, isFront, isBack⟩

theorem sound_mono (reader : StateT (List Token) (Except Failure) α)
    (language larger : List Token → α → Prop) (sound : Sound reader language)
    (within : ∀ chunk value, language chunk value → larger chunk value) : Sound reader larger := by
  intro input value rest read
  obtain ⟨chunk, split, member⟩ := sound input value rest read
  exact ⟨chunk, split, within chunk value member⟩

/-! ## Failures -/

/-- On an input shorter than the bound the reader fails in these ways only. -/
def FailsOnly (reader : StateT (List Token) (Except Failure) α) (bound : Nat)
    (failures : Failure → Prop) : Prop :=
  ∀ input failure, input.length < bound → reader input = .error failure → failures failure

theorem failsOnly_pure (value : α) (bound : Nat) (failures : Failure → Prop) :
    FailsOnly (pure value : StateT (List Token) (Except Failure) α) bound failures :=
  nofun

/-- What the first reader takes is gone for the next one. -/
theorem failsOnly_bind (first : StateT (List Token) (Except Failure) α)
    (next : α → StateT (List Token) (Except Failure) β) (language : List Token → α → Prop)
    (bound later : Nat) (failures : Failure → Prop) (sound : Sound first language)
    (taken : ∀ chunk value, language chunk value → bound ≤ later + chunk.length)
    (here : FailsOnly first bound failures)
    (there : ∀ value, FailsOnly (next value) later failures) :
    FailsOnly (first >>= next) bound failures := by
  intro input failure short fails
  cases outcome : first input with
  | error other =>
      change (first input >>= fun read => next read.1 read.2) = _ at fails
      rw [outcome] at fails
      cases fails
      exact here input failure short outcome
  | ok read =>
      rw [bind_of_ok first next input read.2 read.1 outcome] at fails
      obtain ⟨chunk, rfl, isChunk⟩ := sound input read.1 read.2 outcome
      have within := taken chunk read.1 isChunk
      rw [List.length_append] at short
      exact there read.1 read.2 failure (by omega) fails

end VgiWorker.Readers
