import Mathlib.Data.List.Pairwise
import Mathlib.Data.List.Perm.Basic

/-!
# Sorting entries by their keys

Where a comparison is a total order on the keys of some entries and no two
entries share a key, sorting forgets the order in which the entries came.
-/

set_option autoImplicit false

namespace VgiWorker.KeyedSort

section

variable {Key Entry : Type} (le : Key → Key → Bool)

/-- A comparison that orders the keys, which are all different to it. -/
structure Separates (keys : List Key) : Prop where
  trans : ∀ first ∈ keys, ∀ second ∈ keys, ∀ third ∈ keys,
    le first second = true → le second third = true → le first third = true
  total : ∀ first ∈ keys, ∀ second ∈ keys, (le first second || le second first) = true
  apart : keys.Pairwise fun first second => ¬(le first second = true ∧ le second first = true)

variable (key : Entry → Key)

def keyed (left right : Entry) : Bool :=
  le (key left) (key right)

/-- What keeps the keys of entries keeps their order. -/
theorem map_mergeSort_keyed {Other : Type} (otherKey : Other → Key) (next : Entry → Other)
    (same : ∀ entry, otherKey (next entry) = key entry) (entries : List Entry) :
    (entries.mergeSort (keyed le key)).map next =
      (entries.map next).mergeSort (keyed le otherKey) :=
  List.map_mergeSort fun left _ right _ => by rw [keyed, keyed, same, same]

variable {le key}

theorem Separates.sorted {entries : List Entry} (separates : Separates le (entries.map key)) :
    (entries.mergeSort (keyed le key)).Pairwise fun left right => keyed le key left right = true := by
  have keyOf (entry : { entry : Entry // entry ∈ entries }) : key entry ∈ entries.map key :=
    List.mem_map_of_mem entry.property
  -- The comparison need only be an order on the entries at hand.
  have within := List.pairwise_mergeSort
    (fun first second third : { entry : Entry // entry ∈ entries } =>
      separates.trans _ (keyOf first) _ (keyOf second) _ (keyOf third))
    (fun first second => separates.total _ (keyOf first) _ (keyOf second)) entries.attach
  have mapped := map_mergeSort_keyed le
    (fun entry : { entry : Entry // entry ∈ entries } => key entry) key Subtype.val
    (fun _ => rfl) entries.attach
  rw [List.attach_map_subtype_val] at mapped
  rw [← mapped, List.pairwise_map]
  exact within

private theorem Separates.entries_apart {entries : List Entry}
    (separates : Separates le (entries.map key)) :
    entries.Pairwise fun left right =>
      ¬(keyed le key left right = true ∧ keyed le key right left = true) :=
  List.pairwise_map.mp separates.apart

/-- The entries come out in strictly ascending order. -/
theorem Separates.strictly_sorted {entries : List Entry}
    (separates : Separates le (entries.map key)) :
    (entries.mergeSort (keyed le key)).Pairwise fun left right =>
      keyed le key left right = true ∧ keyed le key right left = false := by
  have apart := separates.entries_apart.perm (List.mergeSort_perm entries (keyed le key)).symm
    fun different both => different both.symm
  refine (separates.sorted.and apart).imp fun both => ⟨both.1, ?_⟩
  rw [Bool.eq_false_iff]
  exact fun reverse => both.2 ⟨both.1, reverse⟩

theorem Separates.perm {entries others : List Entry} (separates : Separates le (entries.map key))
    (same : entries.Perm others) : Separates le (others.map key) where
  trans first isFirst second isSecond third isThird :=
    separates.trans first ((same.map key).mem_iff.mpr isFirst) second
      ((same.map key).mem_iff.mpr isSecond) third ((same.map key).mem_iff.mpr isThird)
  total first isFirst second isSecond :=
    separates.total first ((same.map key).mem_iff.mpr isFirst) second
      ((same.map key).mem_iff.mpr isSecond)
  apart := separates.apart.perm (same.map key) fun different both => different both.symm

/-- Entries with separate keys are sorted to one list, in whichever order they came. -/
theorem Separates.mergeSort_eq {entries others : List Entry}
    (separates : Separates le (entries.map key)) (same : entries.Perm others) :
    entries.mergeSort (keyed le key) = others.mergeSort (keyed le key) := by
  have together : (entries.mergeSort (keyed le key)).Perm (others.mergeSort (keyed le key)) :=
    ((List.mergeSort_perm _ _).trans same).trans (List.mergeSort_perm _ _).symm
  refine List.Perm.eq_of_pairwise (fun left right isLeft isRight before after => ?_)
    separates.sorted (separates.perm same).sorted together
  by_contra different
  have leftEntry := (List.mergeSort_perm entries _).mem_iff.mp isLeft
  have rightEntry := same.mem_iff.mpr ((List.mergeSort_perm others _).mem_iff.mp isRight)
  have symm : Std.Symm fun left right =>
      ¬(keyed le key left right = true ∧ keyed le key right left = true) :=
    ⟨fun _ _ apart both => apart both.symm⟩
  exact separates.entries_apart.forall leftEntry rightEntry different ⟨before, after⟩

end

end VgiWorker.KeyedSort
