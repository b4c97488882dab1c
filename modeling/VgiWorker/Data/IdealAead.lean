import Mathlib.Data.List.Nodup
import Mathlib.Tactic.Common

/-!
# Ideal authenticated encryption

The ideal functionality keeps a log of what has been sealed. A ciphertext opens
under a key, nonce and associated data exactly when the log holds it under
them, and every sealing draws a nonce of its own.
-/

set_option autoImplicit false

namespace VgiWorker.IdealAead

variable {Key Nonce Associated Plaintext Ciphertext : Type}

structure Sealing (Key Nonce Associated Plaintext Ciphertext : Type) where
  key : Key
  nonce : Nonce
  associated : Associated
  plaintext : Plaintext
  ciphertext : Ciphertext

abbrev Log (Key Nonce Associated Plaintext Ciphertext : Type) :=
  List (Sealing Key Nonce Associated Plaintext Ciphertext)

/-- No nonce was drawn twice. -/
def Fresh (log : Log Key Nonce Associated Plaintext Ciphertext) : Prop :=
  (log.map (·.nonce)).Nodup

theorem Fresh.eq_of_nonce {log : Log Key Nonce Associated Plaintext Ciphertext} (fresh : Fresh log)
    (first second : Sealing Key Nonce Associated Plaintext Ciphertext) (firstMem : first ∈ log)
    (secondMem : second ∈ log) (same : first.nonce = second.nonce) : first = second :=
  List.inj_on_of_nodup_map fresh firstMem secondMem same

variable [DecidableEq Key] [DecidableEq Nonce] [DecidableEq Associated] [DecidableEq Ciphertext]

def opened (log : Log Key Nonce Associated Plaintext Ciphertext) (key : Key) (nonce : Nonce)
    (associated : Associated) (ciphertext : Ciphertext) : Option Plaintext :=
  (log.find? fun sealing =>
    sealing.key = key ∧ sealing.nonce = nonce ∧ sealing.associated = associated ∧
      sealing.ciphertext = ciphertext).map (·.plaintext)

/-- What opens was sealed, under the same key, nonce and associated data. -/
theorem exists_of_opened (log : Log Key Nonce Associated Plaintext Ciphertext) (key : Key)
    (nonce : Nonce) (associated : Associated) (ciphertext : Ciphertext) (plaintext : Plaintext)
    (success : opened log key nonce associated ciphertext = some plaintext) :
    ⟨key, nonce, associated, plaintext, ciphertext⟩ ∈ log := by
  obtain ⟨sealing, found, rfl⟩ := Option.map_eq_some_iff.mp success
  have same := List.find?_some found
  obtain ⟨rfl, rfl, rfl, rfl⟩ := of_decide_eq_true same
  exact List.mem_of_find?_eq_some found

theorem opened_of_mem (log : Log Key Nonce Associated Plaintext Ciphertext) (fresh : Fresh log)
    (sealing : Sealing Key Nonce Associated Plaintext Ciphertext) (member : sealing ∈ log) :
    opened log sealing.key sealing.nonce sealing.associated sealing.ciphertext =
      some sealing.plaintext := by
  have someFound : (log.find? fun other =>
      other.key = sealing.key ∧ other.nonce = sealing.nonce ∧
        other.associated = sealing.associated ∧ other.ciphertext = sealing.ciphertext).isSome := by
    rw [List.find?_isSome]
    exact ⟨sealing, member, by simp⟩
  obtain ⟨other, found⟩ := Option.isSome_iff_exists.mp someFound
  have holds := List.find?_some found
  have same := of_decide_eq_true holds
  have equal := fresh.eq_of_nonce other sealing (List.mem_of_find?_eq_some found) member same.2.1
  unfold opened
  rw [found, equal]
  rfl

end VgiWorker.IdealAead
