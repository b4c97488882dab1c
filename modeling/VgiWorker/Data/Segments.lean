import Mathlib.Data.List.Basic
import Mathlib.Tactic.Common

/-!
# Rows in one sequence

Rows of items laid one after the other, found again through the offsets at which
they begin.
-/

set_option autoImplicit false

namespace VgiWorker.Data

variable {α β : Type}

/-- Where each row begins, and last where the rows end. -/
def rowOffsets (size : α → Nat) (start : Nat) : List α → List Nat
  | [] => [start]
  | row :: rest => start :: rowOffsets size (start + size row) rest

/-- What is read from a position up to another. -/
def readBetween (read : Nat → β) (start finish : Nat) : List β :=
  (List.range' start (finish - start)).map read

/-- What is read of a row. -/
def readRow (read : Nat → β) (offsets : List Nat) (index : Nat) : List β :=
  readBetween read (offsets[index]?.getD 0) (offsets[index + 1]?.getD 0)

private theorem rowOffsets_head (size : α → Nat) (start : Nat) (rows : List α) :
    (rowOffsets size start rows)[0]? = some start := by
  cases rows <;> rfl

theorem rowOffsets_uniform (size : α → Nat) (count start : Nat) (rows : List α)
    (uniform : ∀ row ∈ rows, size row = count) (index : Nat) (inside : index ≤ rows.length) :
    (rowOffsets size start rows)[index]? = some (start + index * count) := by
  induction rows generalizing start index with
  | nil =>
      obtain rfl : index = 0 := Nat.le_zero.mp inside
      simp [rowOffsets]
  | cons row rest ih =>
      cases index with
      | zero => simp [rowOffsets]
      | succ index =>
          have later := ih (start + size row)
            (fun other member => uniform other (List.mem_cons_of_mem _ member)) index
            (Nat.le_of_succ_le_succ inside)
          rw [rowOffsets, List.getElem?_cons_succ, later, uniform row List.mem_cons_self]
          congr 1
          rw [Nat.succ_mul]
          omega

theorem readBetween_iff (read : Nat → β) (start : Nat) (items : List β) :
    readBetween read start (start + items.length) = items ↔
      ∀ position item, items[position]? = some item → read (start + position) = item := by
  have reads (position : Nat) : (readBetween read start (start + items.length))[position]? =
      if position < items.length then some (read (start + position)) else none := by
    rw [readBetween, Nat.add_sub_cancel_left, List.getElem?_map]
    by_cases inside : position < items.length
    · simp [inside]
    · simp [inside]
  constructor
  · intro same position item here
    have inside := (List.getElem?_eq_some_iff.mp here).1
    have read := reads position
    rw [same, here, if_pos inside] at read
    exact (Option.some.inj read).symm
  · intro each
    refine List.ext_getElem? fun position => ?_
    rw [reads position]
    by_cases inside : position < items.length
    · have here : items[position]? = some items[position] := List.getElem?_eq_getElem inside
      rw [if_pos inside, here, each position _ here]
    · rw [if_neg inside, List.getElem?_eq_none (Nat.le_of_not_lt inside)]

theorem rowOffsets_map {γ : Type} (size : α → Nat) (make : γ → α) (start : Nat) (rows : List γ) :
    rowOffsets size start (rows.map make) = rowOffsets (fun row => size (make row)) start rows := by
  induction rows generalizing start with
  | nil => rfl
  | cons row rest ih => rw [List.map_cons, rowOffsets, rowOffsets, ih]

section

variable {γ : Type} (items : α → List β) (read : Nat → γ)

private theorem readRow_first (start : Nat) (row : α) (rest : List α) :
    readRow read (rowOffsets (fun row => (items row).length) start (row :: rest)) 0 =
      readBetween read start (start + (items row).length) := by
  rw [readRow, rowOffsets, List.getElem?_cons_zero, List.getElem?_cons_succ, rowOffsets_head]
  rfl

private theorem readRow_later (start : Nat) (row : α) (rest : List α) (index : Nat) :
    readRow read (rowOffsets (fun row => (items row).length) start (row :: rest)) (index + 1) =
      readRow read (rowOffsets (fun row => (items row).length) (start + (items row).length) rest)
        index := rfl

/-- A row is what is read where its items are. -/
theorem readRow_between (start : Nat) (rows : List α) (index : Nat) (row : α)
    (here : rows[index]? = some row) :
    ∃ before, readRow read (rowOffsets (fun row => (items row).length) start rows) index =
        readBetween read (start + before) (start + before + (items row).length) ∧
      ∀ (position : Nat) item, (items row)[position]? = some item →
        (rows.flatMap items)[before + position]? = some item := by
  induction rows generalizing start index with
  | nil => cases here
  | cons first rest ih =>
      cases index with
      | zero =>
          cases here
          refine ⟨0, readRow_first items read start _ rest, fun position item isHere => ?_⟩
          rw [Nat.zero_add, List.flatMap_cons,
            List.getElem?_append_left (List.getElem?_eq_some_iff.mp isHere).1]
          exact isHere
      | succ index =>
          obtain ⟨before, between, placed⟩ := ih (start + (items first).length) index here
          refine ⟨(items first).length + before, ?_, fun position item isHere => ?_⟩
          · rw [readRow_later, between, Nat.add_assoc start]
          · rw [Nat.add_assoc, List.flatMap_cons, List.getElem?_append_right (Nat.le_add_right _ _),
              Nat.add_sub_cancel_left]
            exact placed position item isHere

end

/-- Where each item of the sequence is read as what it gives, so is each row. -/
theorem readRow_map {γ : Type} (items : α → List β) (read : Nat → γ) (gives : β → γ)
    (rows : List α)
    (each : ∀ (position : Nat) item, (rows.flatMap items)[position]? = some item →
      read position = gives item)
    (index : Nat) (row : α) (here : rows[index]? = some row) :
    readRow read (rowOffsets (fun row => (items row).length) 0 rows) index =
      (items row).map gives := by
  obtain ⟨before, between, placed⟩ := readRow_between items read 0 rows index row here
  have length : ((items row).map gives).length = (items row).length := List.length_map gives
  rw [between, ← length, readBetween_iff]
  intro position given isHere
  rw [List.getElem?_map, Option.map_eq_some_iff] at isHere
  obtain ⟨item, isItem, rfl⟩ := isHere
  rw [Nat.zero_add]
  exact each _ item (placed position item isItem)

section

variable (items : α → List β) (read : Nat → β)

/-- A row is read right where its items are. -/
theorem readRow_of_positions (start : Nat) (rows : List α) (index : Nat) (row : α)
    (here : rows[index]? = some row)
    (each : ∀ position item, item ∈ items row → (rows.flatMap items)[position]? = some item →
      read (start + position) = item) :
    readRow read (rowOffsets (fun row => (items row).length) start rows) index = items row := by
  obtain ⟨before, between, placed⟩ := readRow_between items read start rows index row here
  rw [between, readBetween_iff]
  intro position item isHere
  rw [Nat.add_assoc]
  exact each _ item (List.mem_of_getElem? isHere) (placed position item isHere)

private theorem positions_of_readRow (start : Nat) (rows : List α)
    (each : ∀ (index : Nat) row, rows[index]? = some row →
      readRow read (rowOffsets (fun row => (items row).length) start rows) index = items row)
    (position : Nat) (item : β) (here : (rows.flatMap items)[position]? = some item) :
    read (start + position) = item := by
  induction rows generalizing start position with
  | nil => cases here
  | cons row rest ih =>
      rw [List.flatMap_cons] at here
      by_cases inside : position < (items row).length
      · rw [List.getElem?_append_left inside] at here
        have first := each 0 row rfl
        rw [readRow_first, readBetween_iff] at first
        exact first position item here
      · rw [List.getElem?_append_right (Nat.le_of_not_lt inside)] at here
        have later := ih (start + (items row).length)
          (fun index other isHere => by rw [← readRow_later, each (index + 1) other isHere]) _ here
        rw [← later]
        congr 1
        omega

/-- The rows that are looked into are read right exactly when every position of the sequence is,
as long as the items of the other rows are. -/
theorem readRow_iff (rows : List α) (seen : α → Prop)
    (unseen : ∀ row ∈ rows, ¬seen row → ∀ position, ∀ item ∈ items row,
      (rows.flatMap items)[position]? = some item → read position = item) :
    (∀ (index : Nat) row, rows[index]? = some row → seen row →
      readRow read (rowOffsets (fun row => (items row).length) 0 rows) index = items row) ↔
      ∀ (position : Nat) item, (rows.flatMap items)[position]? = some item →
        read position = item := by
  constructor
  · intro each position item here
    rw [← positions_of_readRow items read 0 rows ?_ position item here, Nat.zero_add]
    intro index row isRow
    by_cases isSeen : seen row
    · exact each index row isRow isSeen
    · refine readRow_of_positions items read 0 rows index row isRow ?_
      intro position item member isHere
      rw [Nat.zero_add]
      exact unseen row (List.mem_of_getElem? isRow) isSeen position item member isHere
  · intro each index row here _
    refine readRow_of_positions items read 0 rows index row here ?_
    intro position item _ isHere
    rw [Nat.zero_add]
    exact each position item isHere

end

end VgiWorker.Data
