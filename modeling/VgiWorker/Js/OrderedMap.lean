import Mathlib.Data.List.Nodup
import Mathlib.Tactic.Common

/-!
# Insertion-ordered maps

The `Map` of ECMAScript: a replaced entry keeps its place, a new one goes to the
end, and a deleted key that comes back is new.
-/

set_option autoImplicit false

namespace VgiWorker.Js

variable {Key Value : Type} [DecidableEq Key]

/-- Replace the value under `key`, or append the entry. -/
def setEntry : List (Key × Value) → Key → Value → List (Key × Value)
  | [], key, value => [(key, value)]
  | entry :: rest, key, value =>
      if entry.1 = key then (key, value) :: rest else entry :: setEntry rest key value

def lookupEntry : List (Key × Value) → Key → Option Value
  | [], _ => none
  | entry :: rest, key => if entry.1 = key then some entry.2 else lookupEntry rest key

example : lookupEntry (setEntry [] 1 2) 1 = some 2 := by simp [setEntry, lookupEntry]

private theorem mem_keys_setEntry (entries : List (Key × Value)) (key : Key) (value : Value)
    (other : Key) :
    other ∈ (setEntry entries key value).map Prod.fst ↔
      other = key ∨ other ∈ entries.map Prod.fst := by
  induction entries with
  | nil => simp [setEntry]
  | cons entry rest ih =>
      by_cases same : entry.1 = key
      · simp [setEntry, same]
      · simp only [setEntry, same, if_false, List.map_cons, List.mem_cons, ih]
        exact or_left_comm

private theorem nodup_setEntry (entries : List (Key × Value)) (key : Key) (value : Value)
    (nodup : (entries.map Prod.fst).Nodup) :
    ((setEntry entries key value).map Prod.fst).Nodup := by
  induction entries with
  | nil => simp [setEntry]
  | cons entry rest ih =>
      rw [List.map_cons, List.nodup_cons] at nodup
      by_cases same : entry.1 = key
      · simpa [setEntry, same] using nodup
      · simp only [setEntry, same, if_false, List.map_cons, List.nodup_cons]
        refine ⟨?_, ih nodup.2⟩
        rw [mem_keys_setEntry]
        rintro (equal | member)
        · exact same equal
        · exact nodup.1 member

theorem setEntry_absent (entries : List (Key × Value)) (key : Key) (value : Value)
    (absent : key ∉ entries.map Prod.fst) :
    setEntry entries key value = entries ++ [(key, value)] := by
  induction entries with
  | nil => rfl
  | cons entry rest ih =>
      rw [List.map_cons, List.mem_cons, not_or] at absent
      rw [setEntry, if_neg (Ne.symm absent.1), ih absent.2, List.cons_append]

theorem lookupEntry_setEntry (entries : List (Key × Value)) (key : Key) (value : Value)
    (other : Key) :
    lookupEntry (setEntry entries key value) other =
      if key = other then some value else lookupEntry entries other := by
  induction entries with
  | nil => simp [setEntry, lookupEntry]
  | cons entry rest ih =>
      by_cases same : entry.1 = key
      · by_cases hit : key = other
        · simp [setEntry, lookupEntry, same, hit]
        · simp [setEntry, lookupEntry, same, hit]
      · by_cases first : entry.1 = other
        · subst first
          simp [setEntry, lookupEntry, same, Ne.symm same]
        · simp [setEntry, lookupEntry, same, first, ih]

theorem lookupEntry_isSome (entries : List (Key × Value)) (key : Key) :
    (lookupEntry entries key).isSome ↔ key ∈ entries.map Prod.fst := by
  induction entries with
  | nil => simp [lookupEntry]
  | cons entry rest ih =>
      by_cases same : entry.1 = key
      · simp [lookupEntry, same]
      · simp only [lookupEntry, same, if_false, List.map_cons, List.mem_cons, ih]
        constructor
        · exact Or.inr
        · rintro (equal | member)
          · exact absurd equal.symm same
          · exact member

theorem mem_of_lookupEntry (entries : List (Key × Value)) (key : Key) (value : Value)
    (found : lookupEntry entries key = some value) : (key, value) ∈ entries := by
  induction entries with
  | nil => simp [lookupEntry] at found
  | cons entry rest ih =>
      by_cases same : entry.1 = key
      · simp only [lookupEntry, same, if_true, Option.some.injEq] at found
        rw [← same, ← found]
        exact List.mem_cons_self
      · simp only [lookupEntry, same, if_false] at found
        exact List.mem_cons_of_mem _ (ih found)

theorem lookupEntry_of_mem (entries : List (Key × Value)) (key : Key) (value : Value)
    (nodup : (entries.map Prod.fst).Nodup) (member : (key, value) ∈ entries) :
    lookupEntry entries key = some value := by
  induction entries with
  | nil => cases member
  | cons entry rest ih =>
      rw [List.map_cons, List.nodup_cons] at nodup
      rcases List.mem_cons.mp member with here | later
      · simp [lookupEntry, ← here]
      · have different : entry.1 ≠ key := by
          intro same
          exact nodup.1 (same ▸ List.mem_map_of_mem (f := Prod.fst) later)
        simpa [lookupEntry, different] using ih nodup.2 later

private theorem lookupEntry_filter (entries : List (Key × Value)) (key other : Key) :
    lookupEntry (entries.filter fun entry => entry.1 ≠ key) other =
      if key = other then none else lookupEntry entries other := by
  induction entries with
  | nil => simp [lookupEntry]
  | cons entry rest ih =>
      by_cases removed : entry.1 = key
      · by_cases hit : key = other
        · simpa [removed, hit] using ih
        · simpa [removed, hit, lookupEntry] using ih
      · by_cases first : entry.1 = other
        · subst first
          simp [removed, lookupEntry, Ne.symm removed]
        · simpa [removed, lookupEntry, first] using ih

structure OrderedMap (Key Value : Type) where
  entries : List (Key × Value)
  nodup : (entries.map Prod.fst).Nodup

namespace OrderedMap

def empty : OrderedMap Key Value := ⟨[], List.nodup_nil⟩

def get? (map : OrderedMap Key Value) (key : Key) : Option Value :=
  lookupEntry map.entries key

def has (map : OrderedMap Key Value) (key : Key) : Bool :=
  (map.get? key).isSome

def keys (map : OrderedMap Key Value) : List Key :=
  map.entries.map Prod.fst

def values (map : OrderedMap Key Value) : List Value :=
  map.entries.map Prod.snd

def set (map : OrderedMap Key Value) (key : Key) (value : Value) : OrderedMap Key Value :=
  ⟨setEntry map.entries key value, nodup_setEntry map.entries key value map.nodup⟩

def delete (map : OrderedMap Key Value) (key : Key) : OrderedMap Key Value :=
  ⟨map.entries.filter fun entry => entry.1 ≠ key,
    map.nodup.sublist (List.filter_sublist.map Prod.fst)⟩

/-- `new Map(entries)`. -/
def ofEntries (entries : List (Key × Value)) : OrderedMap Key Value :=
  entries.foldl (fun map entry => map.set entry.1 entry.2) empty

@[simp] theorem get?_empty (key : Key) :
    (empty : OrderedMap Key Value).get? key = none := rfl

theorem get?_set (map : OrderedMap Key Value) (key : Key) (value : Value) (other : Key) :
    (map.set key value).get? other = if key = other then some value else map.get? other :=
  lookupEntry_setEntry map.entries key value other

theorem get?_delete (map : OrderedMap Key Value) (key other : Key) :
    (map.delete key).get? other = if key = other then none else map.get? other :=
  lookupEntry_filter map.entries key other

theorem mem_keys_iff (map : OrderedMap Key Value) (key : Key) :
    key ∈ map.keys ↔ (map.get? key).isSome :=
  (lookupEntry_isSome map.entries key).symm

theorem mem_entries_iff (map : OrderedMap Key Value) (key : Key) (value : Value) :
    (key, value) ∈ map.entries ↔ map.get? key = some value :=
  ⟨lookupEntry_of_mem map.entries key value map.nodup,
    mem_of_lookupEntry map.entries key value⟩

omit [DecidableEq Key] in
theorem nodup_keys (map : OrderedMap Key Value) : map.keys.Nodup :=
  map.nodup

theorem mem_keys_set (map : OrderedMap Key Value) (key : Key) (value : Value) (other : Key) :
    other ∈ (map.set key value).keys ↔ other = key ∨ other ∈ map.keys :=
  mem_keys_setEntry map.entries key value other

private theorem entries_foldl_set (entries : List (Key × Value)) (map : OrderedMap Key Value)
    (nodup : ((map.entries ++ entries).map Prod.fst).Nodup) :
    (entries.foldl (fun map entry => map.set entry.1 entry.2) map).entries =
      map.entries ++ entries := by
  induction entries generalizing map with
  | nil => simp
  | cons entry rest ih =>
      have appended : (map.set entry.1 entry.2).entries = map.entries ++ [entry] := by
        have fresh : entry.1 ∉ map.entries.map Prod.fst := by
          rw [List.map_append, List.map_cons] at nodup
          intro member
          exact (List.nodup_append.mp nodup).2.2 entry.1 member entry.1 List.mem_cons_self rfl
        change setEntry map.entries entry.1 entry.2 = map.entries ++ [entry]
        generalize map.entries = entries at fresh
        induction entries with
        | nil => rfl
        | cons first others ih =>
            rw [List.map_cons, List.mem_cons, not_or] at fresh
            simp [setEntry, Ne.symm fresh.1, ih fresh.2]
      rw [List.foldl_cons, ih _ (by simpa [appended] using nodup), appended]
      simp

/-- `new Map(entries)` over pairwise distinct keys. -/
theorem entries_ofEntries (entries : List (Key × Value))
    (nodup : (entries.map Prod.fst).Nodup) : (ofEntries entries).entries = entries := by
  have folded := entries_foldl_set entries empty nodup
  rw [← ofEntries] at folded
  exact folded

theorem mem_keys_of_ofEntries (entries : List (Key × Value)) (key : Key)
    (member : key ∈ (ofEntries entries).keys) : key ∈ entries.map Prod.fst := by
  have folded : ∀ (entries : List (Key × Value)) (map : OrderedMap Key Value),
      key ∈ (entries.foldl (fun map entry => map.set entry.1 entry.2) map).keys →
        key ∈ map.keys ∨ key ∈ entries.map Prod.fst := by
    intro entries
    induction entries with
    | nil => exact fun map member => Or.inl member
    | cons entry rest ih =>
        intro map member
        rcases ih _ member with here | later
        · rcases (mem_keys_set map entry.1 entry.2 key).mp here with same | before
          · exact Or.inr (same ▸ List.mem_cons_self)
          · exact Or.inl before
        · exact Or.inr (List.mem_cons_of_mem _ later)
  rcases folded entries empty member with none | named
  · cases none
  · exact named

theorem get?_ofEntries (entries : List (Key × Value))
    (nodup : (entries.map Prod.fst).Nodup) (key : Key) :
    (ofEntries entries).get? key = lookupEntry entries key := by
  rw [get?, entries_ofEntries entries nodup]

end OrderedMap

end VgiWorker.Js
