import Mathlib.Tactic.Common

/-!
# Selecting by position

The items at given positions, in the order of the positions and as often as they
are named.
-/

set_option autoImplicit false

namespace VgiWorker

variable {α β : Type}

def pick (items : List α) (positions : List Nat) : List α :=
  positions.filterMap fun position => items[position]?

theorem pick_cons_some (items : List α) (position : Nat) (rest : List Nat) (item : α)
    (here : items[position]? = some item) :
    pick items (position :: rest) = item :: pick items rest :=
  List.filterMap_cons_some here

theorem pick_cons_none (items : List α) (position : Nat) (rest : List Nat)
    (here : items[position]? = none) : pick items (position :: rest) = pick items rest :=
  List.filterMap_cons_none here

theorem getElem?_pick (items : List α) (positions : List Nat)
    (inside : ∀ position ∈ positions, position < items.length) (index : Nat) :
    (pick items positions)[index]? = positions[index]?.bind fun position => items[position]? := by
  induction positions generalizing index with
  | nil => rfl
  | cons position rest ih =>
      have here := List.getElem?_eq_getElem (inside position List.mem_cons_self)
      have later := ih fun other member => inside other (List.mem_cons_of_mem _ member)
      rw [pick_cons_some items position rest _ here]
      cases index with
      | zero => simp [here]
      | succ index => exact later index

theorem length_pick (items : List α) (positions : List Nat)
    (inside : ∀ position ∈ positions, position < items.length) :
    (pick items positions).length = positions.length := by
  induction positions with
  | nil => rfl
  | cons position rest ih =>
      have here := List.getElem?_eq_getElem (inside position List.mem_cons_self)
      rw [pick_cons_some items position rest _ here, List.length_cons, List.length_cons,
        ih fun other member => inside other (List.mem_cons_of_mem _ member)]

/-- Selecting from a selection selects the selected positions. -/
theorem pick_pick (items : List α) (positions others : List Nat)
    (inside : ∀ position ∈ positions, position < items.length) :
    pick (pick items positions) others = pick items (pick positions others) := by
  induction others with
  | nil => rfl
  | cons other rest ih =>
      have found := getElem?_pick items positions inside other
      cases held : positions[other]? with
      | none =>
          rw [held] at found
          rw [pick_cons_none _ other rest found, pick_cons_none positions other rest held, ih]
      | some position =>
          have here := List.getElem?_eq_getElem (inside position (List.mem_of_getElem? held))
          rw [held, Option.bind_some, here] at found
          rw [pick_cons_some _ other rest _ found, pick_cons_some positions other rest _ held,
            pick_cons_some items position _ _ here, ih]

/-- Of distinct items only all positions in order select all items in order. -/
theorem pick_eq_self_iff (items : List α) (distinct : items.Nodup) (positions : List Nat)
    (inside : ∀ position ∈ positions, position < items.length) :
    pick items positions = items ↔ positions = List.range items.length := by
  constructor
  · intro same
    have length := (length_pick items positions inside).symm.trans (congrArg List.length same)
    refine List.ext_getElem? fun index => ?_
    have found := getElem?_pick items positions inside index
    rw [same] at found
    cases held : positions[index]? with
    | none =>
        rw [List.getElem?_eq_none_iff, length] at held
        rw [List.getElem?_eq_none (by rw [List.length_range]; exact held)]
    | some position =>
        have before := inside position (List.mem_of_getElem? held)
        have within : index < items.length := length ▸ (List.getElem?_eq_some_iff.mp held).1
        rw [held, Option.bind_some] at found
        obtain rfl := (List.getElem?_inj within distinct).mp found
        exact (List.getElem?_range before).symm
  · rintro rfl
    refine List.ext_getElem? fun index => ?_
    rw [getElem?_pick items _ inside]
    by_cases within : index < items.length
    · rw [List.getElem?_range within, Option.bind_some]
    · rw [List.getElem?_eq_none (by rw [List.length_range]; exact Nat.not_lt.mp within),
        List.getElem?_eq_none (Nat.not_lt.mp within)]
      rfl

end VgiWorker
