import Mathlib.Data.List.Forall2
import Mathlib.Tactic.Common

/-!
# Generators

What a generator yields before it ends or fails, and a generator that converts each item
of another one.
-/

set_option autoImplicit false

namespace VgiWorker

variable {Failure α β : Type}

structure Yielded (Failure α : Type) where
  items : List α
  failure : Option Failure

namespace Yielded

def fail (failure : Failure) : Yielded Failure α :=
  ⟨[], some failure⟩

/-- The second generator runs when the first one ends without a failure. -/
def andThen (first second : Yielded Failure α) : Yielded Failure α :=
  match first.failure with
  | some _ => first
  | none => ⟨first.items ++ second.items, second.failure⟩

def filter (keep : α → Bool) (source : Yielded Failure α) : Yielded Failure α :=
  ⟨source.items.filter keep, source.failure⟩

def map (step : α → β) (source : Yielded Failure α) : Yielded Failure β :=
  ⟨source.items.map step, source.failure⟩

def convertFrom (step : α → Except Failure β) (failure : Option Failure) :
    List α → Yielded Failure β
  | [] => ⟨[], failure⟩
  | item :: rest =>
      match step item with
      | .error refused => fail refused
      | .ok result =>
          let later := convertFrom step failure rest
          ⟨result :: later.items, later.failure⟩

/-- Each item is converted as it comes; a failed conversion ends the run. -/
def convert (step : α → Except Failure β) (source : Yielded Failure α) : Yielded Failure β :=
  convertFrom step source.failure source.items

theorem filter_andThen (keep : α → Bool) (first second : Yielded Failure α) :
    (first.andThen second).filter keep = (first.filter keep).andThen (second.filter keep) := by
  cases first with
  | mk items failure =>
      cases failure with
      | some => rfl
      | none => simp [andThen, filter]

theorem map_andThen (step : α → β) (first second : Yielded Failure α) :
    (first.andThen second).map step = (first.map step).andThen (second.map step) := by
  cases first with
  | mk items failure =>
      cases failure with
      | some => rfl
      | none => simp [andThen, map]

theorem convert_andThen (step : α → Except Failure β) (first second : Yielded Failure α) :
    (first.andThen second).convert step = (first.convert step).andThen (second.convert step) := by
  obtain ⟨items, failure⟩ := first
  cases failure with
  | some failure =>
      have fails : ((⟨items, some failure⟩ : Yielded Failure α).convert step).failure ≠ none := by
        induction items with
        | nil => exact nofun
        | cons item rest ih =>
            unfold convert convertFrom
            cases step item with
            | error refused => exact nofun
            | ok result => exact ih
      unfold andThen
      cases ended : ((⟨items, some failure⟩ : Yielded Failure α).convert step).failure with
      | none => exact absurd ended fails
      | some => rfl
  | none =>
      change convertFrom step second.failure (items ++ second.items) =
        (convertFrom step none items).andThen (second.convert step)
      induction items with
      | nil => rfl
      | cons item rest ih =>
          rw [List.cons_append]
          unfold convertFrom
          cases step item with
          | error refused => rfl
          | ok result =>
              dsimp only
              rw [ih]
              cases ended : (convertFrom step none rest).failure with
              | none => simp [andThen, ended]
              | some failure => simp [andThen, ended]

/-- The converted items correspond to all items, to the same end, exactly when each item is
converted to a result that corresponds to it. -/
theorem convert_agrees_iff (step : α → Except Failure β) (related : β → α → Prop)
    (source : Yielded Failure α) :
    ((source.convert step).failure = source.failure ∧
        List.Forall₂ related (source.convert step).items source.items) ↔
      ∀ item ∈ source.items, ∃ result, step item = .ok result ∧ related result item := by
  obtain ⟨items, failure⟩ := source
  change ((convertFrom step failure items).failure = failure ∧
    List.Forall₂ related (convertFrom step failure items).items items) ↔ ∀ item ∈ items, _
  induction items with
  | nil => exact ⟨fun _ => nofun, fun _ => ⟨rfl, .nil⟩⟩
  | cons item rest ih =>
      unfold convertFrom
      cases converted : step item with
      | error refused =>
          constructor
          · rintro ⟨_, pairs⟩
            cases pairs
          · intro each
            obtain ⟨result, success, _⟩ := each item List.mem_cons_self
            rw [converted] at success
            cases success
      | ok result =>
          dsimp only
          rw [List.forall₂_cons, List.forall_mem_cons, converted]
          constructor
          · rintro ⟨same, here, later⟩
            exact ⟨⟨result, rfl, here⟩, ih.mp ⟨same, later⟩⟩
          · rintro ⟨⟨_, success, here⟩, later⟩
            cases success
            obtain ⟨same, pairs⟩ := ih.mpr later
            exact ⟨same, here, pairs⟩

end Yielded

end VgiWorker
