import Mathlib.Data.Finset.Card
import VgiWorker.Data.Result

/-!
# Walks

A walk goes from place to place until a turn finishes it. Among finitely many
places it ends unless it comes back to one, and then within as many turns.
-/

set_option autoImplicit false

namespace VgiWorker.Data

inductive Turn (Result Place : Type) where
  | finish (result : Result)
  | goOn (next : Place)

section

variable {Failure Result Place : Type} (turn : Place → Except Failure (Turn Result Place))

/-- The result of a walk that takes at most the given number of turns. -/
def walk : Nat → Place → Except Failure (Option Result)
  | 0, _ => .ok none
  | turns + 1, place => do
      match ← turn place with
      | .finish result => .ok (some result)
      | .goOn next => walk turns next

/-- The place after a number of turns. -/
def visited : Nat → Place → Option Place
  | 0, place => some place
  | count + 1, place =>
      match turn place with
      | .ok (.goOn next) => visited count next
      | _ => none

theorem visited_add (count more : Nat) (place : Place) :
    visited turn (count + more) place = (visited turn count place).bind (visited turn more) := by
  induction count generalizing place with
  | zero => rw [Nat.zero_add]; rfl
  | succ count ih =>
      rw [Nat.add_right_comm, visited, visited]
      cases turn place with
      | error failure => rfl
      | ok next =>
          cases next with
          | finish result => rfl
          | goOn next => exact ih next

/-- A walk ends where a turn finishes. -/
theorem walk_iff (turns : Nat) (place : Place) (result : Result) :
    walk turn turns place = .ok (some result) ↔
      ∃ count < turns, ∃ last, visited turn count place = some last ∧
        turn last = .ok (.finish result) := by
  induction turns generalizing place with
  | zero => exact ⟨nofun, fun ⟨_, bound, _⟩ => absurd bound (Nat.not_lt_zero _)⟩
  | succ turns ih =>
      rw [walk]
      cases taken : turn place with
      | error failure =>
          refine ⟨nofun, ?_⟩
          rintro ⟨count, _, last, there, finished⟩
          cases count with
          | zero => cases there; rw [taken] at finished; cases finished
          | succ count => rw [visited, taken] at there; cases there
      | ok next =>
          cases next with
          | finish found =>
              constructor
              · intro same
                cases same
                exact ⟨0, Nat.succ_pos _, place, rfl, taken⟩
              · rintro ⟨count, _, last, there, finished⟩
                cases count with
                | zero => cases there; rw [taken] at finished; cases finished; rfl
                | succ count => rw [visited, taken] at there; cases there
          | goOn next =>
              refine (ih next).trans ⟨?_, ?_⟩
              · rintro ⟨count, bound, last, there, finished⟩
                exact ⟨count + 1, by omega, last, by rw [visited, taken]; exact there, finished⟩
              · rintro ⟨count, bound, last, there, finished⟩
                cases count with
                | zero => cases there; rw [taken] at finished; cases finished
                | succ count =>
                    rw [visited, taken] at there
                    exact ⟨count, by omega, last, there, finished⟩

theorem visited_past (place last : Place) (count more : Nat) (result : Result)
    (there : visited turn count place = some last) (finished : turn last = .ok (.finish result)) :
    visited turn (count + (more + 1)) place = none := by
  rw [visited_add, there, Option.bind_some, visited, finished]

theorem goOn_of_visited (place last : Place) (count : Nat)
    (there : visited turn (count + 1) place = some last) :
    ∃ next, turn place = .ok (.goOn next) := by
  rw [visited] at there
  split at there
  · next next taken => exact ⟨next, taken⟩
  · cases there

/-- What a walk's turns preserve holds where it ends. -/
theorem walk_invariant (Holds : Place → Prop) (start : Place) (initially : Holds start)
    (kept : ∀ place next, Holds place → turn place = .ok (.goOn next) → Holds next) (turns : Nat)
    (result : Result) (ended : walk turn turns start = .ok (some result)) :
    ∃ last, Holds last ∧ turn last = .ok (.finish result) := by
  obtain ⟨count, bound, last, there, finished⟩ := (walk_iff turn turns start result).1 ended
  refine ⟨last, ?_, finished⟩
  clear bound ended finished
  induction count generalizing start with
  | zero =>
      cases there
      exact initially
  | succ count ih =>
      obtain ⟨next, taken⟩ := goOn_of_visited turn start last count there
      rw [visited.eq_2, taken] at there
      exact ih next (kept start next initially taken) there

/-- A walk whose turns lower a measure stops. -/
theorem walk_stops (measure : Place → Nat)
    (lowered : ∀ place next, turn place = .ok (.goOn next) → measure next < measure place)
    (turns : Nat) (start : Place) (enough : measure start < turns) :
    walk turn turns start ≠ .ok none := by
  induction turns generalizing start with
  | zero => exact absurd enough (Nat.not_lt_zero _)
  | succ turns ih =>
      rw [walk]
      cases taken : turn start with
      | error failure => exact nofun
      | ok next =>
          cases next with
          | finish result => exact nofun
          | goOn next =>
              have lower := lowered start next taken
              exact ih next (by omega)

/-- A walk that finishes visits no place twice. -/
theorem visited_once (place last : Place) (count : Nat) (result : Result)
    (there : visited turn count place = some last) (finished : turn last = .ok (.finish result))
    (early late : Nat) (again : Place) (earlier : early < late)
    (before : visited turn early place = some again) : visited turn late place ≠ some again := by
  intro after
  have notPast : late ≤ count := by
    by_contra past
    obtain ⟨more, rfl⟩ := Nat.exists_eq_add_of_lt (Nat.lt_of_not_le past)
    rw [Nat.add_assoc, visited_past turn place last count more result there finished] at after
    cases after
  -- From the second visit on the walk repeats what followed the first, so it is not at its end yet.
  obtain ⟨rest, rfl⟩ := Nat.exists_eq_add_of_le notPast
  have atEnd : visited turn (early + rest) place = some last := by
    rw [visited_add, before, ← there, visited_add, after]
  obtain ⟨more, gap⟩ := Nat.exists_eq_add_of_lt earlier
  have past := visited_past turn place last (early + rest) more result atEnd finished
  have sum : early + rest + (more + 1) = late + rest := by omega
  rw [sum, there] at past
  cases past

/-- A walk that goes on from finitely many places only ends exactly when no turn fails and no
place is visited twice. -/
theorem walk_ends_iff [DecidableEq Place] (places : Finset Place) (start : Place)
    (within : ∀ place next, turn place = .ok (.goOn next) → place ∈ places) :
    (∃ turns ≤ places.card + 1, ∃ result, walk turn turns start = .ok (some result)) ↔
      (∀ count place, visited turn count start = some place → ∃ next, turn place = .ok next) ∧
        ∀ early late place, early < late → visited turn early start = some place →
          visited turn late start ≠ some place := by
  constructor
  · rintro ⟨turns, _, result, ended⟩
    obtain ⟨count, _, last, there, finished⟩ := (walk_iff turn turns start result).1 ended
    refine ⟨?_, fun early late place earlier =>
      visited_once turn start last count result there finished early late place earlier⟩
    intro other place atPlace
    rcases Nat.lt_trichotomy other count with before | rfl | past
    · obtain ⟨more, rfl⟩ := Nat.exists_eq_add_of_lt before
      rw [Nat.add_assoc, visited_add, atPlace, Option.bind_some] at there
      obtain ⟨next, taken⟩ := goOn_of_visited turn place last more there
      exact ⟨_, taken⟩
    · rw [atPlace] at there
      cases there
      exact ⟨_, finished⟩
    · obtain ⟨more, rfl⟩ := Nat.exists_eq_add_of_lt past
      rw [Nat.add_assoc, visited_past turn start last count more result there finished] at atPlace
      cases atPlace
  · rintro ⟨total, once⟩
    by_contra endless
    have goesOn : ∀ count ≤ places.card, ∀ place, visited turn count start = some place →
        ∃ next, turn place = .ok (.goOn next) := by
      intro count bound place there
      obtain ⟨next, taken⟩ := total count place there
      cases next with
      | finish result =>
          exact absurd ⟨count + 1, by omega, result, (walk_iff turn _ start result).2
            ⟨count, by omega, place, there, taken⟩⟩ endless
      | goOn next => exact ⟨next, taken⟩
    have reached : ∀ count ≤ places.card, ∃ place ∈ places, visited turn count start = some place := by
      intro count bound
      have there : ∃ place, visited turn count start = some place := by
        induction count with
        | zero => exact ⟨start, rfl⟩
        | succ count ih =>
            obtain ⟨place, there⟩ := ih (by omega)
            obtain ⟨next, taken⟩ := goesOn count (by omega) place there
            refine ⟨next, ?_⟩
            rw [visited_add, there, Option.bind_some, visited.eq_2, taken]
            rfl
      obtain ⟨place, there⟩ := there
      obtain ⟨next, taken⟩ := goesOn count bound place there
      exact ⟨place, within place next taken, there⟩
    -- More places are visited than there are.
    obtain ⟨early, earlyBound, late, lateBound, different, same⟩ :=
      Finset.exists_ne_map_eq_of_card_lt_of_maps_to
        (s := Finset.range (places.card + 1)) (t := places)
        (f := fun count => (visited turn count start).getD start) (by simp) fun count member => by
          obtain ⟨place, listed, there⟩ := reached count (Nat.lt_succ_iff.1 (Finset.mem_range.1 member))
          simpa [there] using listed
    obtain ⟨first, _, atEarly⟩ := reached early (Nat.lt_succ_iff.1 (Finset.mem_range.1 earlyBound))
    obtain ⟨second, _, atLate⟩ := reached late (Nat.lt_succ_iff.1 (Finset.mem_range.1 lateBound))
    have again : first = second := by simpa [atEarly, atLate] using same
    subst again
    rcases Nat.lt_or_gt_of_ne different with earlier | later
    · exact once early late first earlier atEarly atLate
    · exact once late early first later atLate atEarly

end

end VgiWorker.Data
