import Mathlib.Data.List.Basic
import Mathlib.Tactic.Common

/-!
# A memo whose hits are checked

A bounded memo filed under a hash of the input. An entry answers only for the
input it holds, so what the memo holds never shows in an answer.
-/

set_option autoImplicit false

namespace VgiWorker.CheckedMemo

variable {Hash Input Output Failure : Type}

structure Entry (Hash Input Output : Type) where
  hash : Hash
  input : Input
  output : Output

/-- Every entry holds what its input computes to. -/
def Sound (compute : Input → Except Failure Output) (memo : List (Entry Hash Input Output)) : Prop :=
  ∀ entry ∈ memo, compute entry.input = .ok entry.output

private theorem sound_append (compute : Input → Except Failure Output)
    (memo : List (Entry Hash Input Output)) (sound : Sound compute memo)
    (entry : Entry Hash Input Output) (holds : compute entry.input = .ok entry.output) :
    Sound compute (memo ++ [entry]) := by
  intro held member
  rcases List.mem_append.mp member with before | added
  · exact sound held before
  · rw [List.mem_singleton.mp added]
    exact holds

/-! ## Asking -/

variable [DecidableEq Hash] (hashOf : Input → Hash) (compute : Input → Except Failure Output)
  (maxEntries : Nat) (memo : List (Entry Hash Input Output))

/-- The memo without the entry under a hash, oldest first. -/
def without (hash : Hash) : List (Entry Hash Input Output) :=
  memo.filter fun entry => entry.hash ≠ hash

def remember (entry : Entry Hash Input Output) : List (Entry Hash Input Output) :=
  let others := without memo entry.hash
  (if maxEntries ≤ others.length then others.tail else others) ++ [entry]

def miss (input : Input) : Except Failure Output × List (Entry Hash Input Output) :=
  match compute input with
  | .ok output => (.ok output, remember maxEntries memo ⟨hashOf input, input, output⟩)
  | .error failure => (.error failure, memo)

private theorem sound_without (sound : Sound compute memo) (hash : Hash) :
    Sound compute (without memo hash) :=
  fun entry member => sound entry (List.mem_filter.mp member).1

private theorem sound_remember (sound : Sound compute memo) (entry : Entry Hash Input Output)
    (holds : compute entry.input = .ok entry.output) :
    Sound compute (remember maxEntries memo entry) := by
  have others := sound_without compute memo sound entry.hash
  refine sound_append compute _ ?_ entry holds
  split
  · exact fun held member => others held (List.mem_of_mem_tail member)
  · exact others

private theorem miss_sound (sound : Sound compute memo) (input : Input) :
    (miss hashOf compute maxEntries memo input).1 = compute input ∧
      Sound compute (miss hashOf compute maxEntries memo input).2 := by
  unfold miss
  cases computed : compute input with
  | error failure => exact ⟨rfl, sound⟩
  | ok output => exact ⟨rfl, sound_remember compute maxEntries memo sound _ computed⟩

variable [DecidableEq Input]

def ask (input : Input) : Except Failure Output × List (Entry Hash Input Output) :=
  match memo.find? fun entry => entry.hash = hashOf input with
  | some entry =>
      if entry.input = input then (.ok entry.output, without memo entry.hash ++ [entry])
      else miss hashOf compute maxEntries memo input
  | none => miss hashOf compute maxEntries memo input

theorem ask_sound (sound : Sound compute memo) (input : Input) :
    (ask hashOf compute maxEntries memo input).1 = compute input ∧
      Sound compute (ask hashOf compute maxEntries memo input).2 := by
  unfold ask
  split
  · rename_i entry found
    have holds := sound entry (List.mem_of_find?_eq_some found)
    split
    · rename_i hit
      refine ⟨?_, sound_append compute _ (sound_without compute memo sound _) entry holds⟩
      rw [← holds, hit]
    · exact miss_sound hashOf compute maxEntries memo sound input
  · exact miss_sound hashOf compute maxEntries memo sound input

/-! ## Over a run -/

/-- What a memo that starts empty holds once it has answered. -/
def after (asked : List Input) : List (Entry Hash Input Output) :=
  asked.foldl (fun held input => (ask hashOf compute maxEntries held input).2) []

theorem sound_after (asked : List Input) :
    Sound compute (after hashOf compute maxEntries asked) := by
  have run : ∀ (inputs : List Input) (held : List (Entry Hash Input Output)), Sound compute held →
      Sound compute
        (inputs.foldl (fun held input => (ask hashOf compute maxEntries held input).2) held) := by
    intro inputs
    induction inputs with
    | nil => exact fun _ sound => sound
    | cons input rest ih =>
        intro held sound
        exact ih _ (ask_sound hashOf compute maxEntries held sound input).2
  exact run asked [] (fun _ member => absurd member List.not_mem_nil)

/-- Whatever was asked before, the answer is what the input computes to. -/
theorem ask_after (asked : List Input) (input : Input) :
    (ask hashOf compute maxEntries (after hashOf compute maxEntries asked) input).1 =
      compute input :=
  (ask_sound hashOf compute maxEntries _ (sound_after hashOf compute maxEntries asked) input).1

/-! ## Entries that get lost -/

omit [DecidableEq Input] in
private theorem length_without (entry : Entry Hash Input Output) (member : entry ∈ memo) :
    (without memo entry.hash).length + 1 ≤ memo.length := by
  rw [Nat.add_one_le_iff]
  refine List.length_filter_lt_length_iff_exists.mpr ⟨entry, member, ?_⟩
  simp

omit [DecidableEq Input] in
private theorem length_miss (room : 0 < maxEntries) (bounded : memo.length ≤ maxEntries)
    (input : Input) : (miss hashOf compute maxEntries memo input).2.length ≤ maxEntries := by
  unfold miss
  split
  · rename_i output computed
    have others : (without memo (hashOf input)).length ≤ maxEntries :=
      Nat.le_trans (List.length_filter_le _ _) bounded
    dsimp only [remember]
    rw [List.length_append, List.length_singleton]
    split
    · rw [List.length_tail]
      omega
    · omega
  · exact bounded

theorem length_ask (room : 0 < maxEntries) (bounded : memo.length ≤ maxEntries) (input : Input) :
    (ask hashOf compute maxEntries memo input).2.length ≤ maxEntries := by
  unfold ask
  split
  · rename_i entry found
    split
    · have shrunk := length_without memo entry (List.mem_of_find?_eq_some found)
      dsimp only
      rw [List.length_append, List.length_singleton]
      omega
    · exact length_miss hashOf compute maxEntries memo room bounded input
  · exact length_miss hashOf compute maxEntries memo room bounded input

/-- A question, or the loss of every entry under a hash that is not kept. -/
inductive Turn (Hash Input : Type) where
  | ask (input : Input)
  | evict (kept : Hash → Bool)

/-- The answers to the questions among the turns, and what the memo then holds. -/
def run (memo : List (Entry Hash Input Output)) : List (Turn Hash Input) →
    List (Except Failure Output) × List (Entry Hash Input Output)
  | [] => ([], memo)
  | .ask input :: rest =>
      let asked := ask hashOf compute maxEntries memo input
      let later := run asked.2 rest
      (asked.1 :: later.1, later.2)
  | .evict kept :: rest => run (memo.filter fun entry => kept entry.hash) rest

def questions : List (Turn Hash Input) → List Input
  | [] => []
  | .ask input :: rest => input :: questions rest
  | .evict _ :: rest => questions rest

/-- A memo that starts sound and within its limit stays so, and answers as the computation does. -/
theorem run_sound (room : 0 < maxEntries) (sound : Sound compute memo)
    (bounded : memo.length ≤ maxEntries) (turns : List (Turn Hash Input)) :
    (run hashOf compute maxEntries memo turns).1 = (questions turns).map compute ∧
      Sound compute (run hashOf compute maxEntries memo turns).2 ∧
      (run hashOf compute maxEntries memo turns).2.length ≤ maxEntries := by
  induction turns generalizing memo with
  | nil => exact ⟨rfl, sound, bounded⟩
  | cons turn rest ih =>
      cases turn with
      | ask input =>
          obtain ⟨answer, stillSound⟩ := ask_sound hashOf compute maxEntries memo sound input
          have later := ih _ stillSound
            (length_ask hashOf compute maxEntries memo room bounded input)
          refine ⟨?_, later.2⟩
          rw [run, questions, List.map_cons, ← answer]
          exact congrArg _ later.1
      | evict kept =>
          exact ih _ (fun entry member => sound entry (List.mem_filter.mp member).1)
            (Nat.le_trans (List.length_filter_le _ _) bounded)

end VgiWorker.CheckedMemo
