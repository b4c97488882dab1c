import VgiWorker.Js.OrderedMap

/-!
# Maps set several times

Setting entries one after the other leaves each key the last value set for it, and the
keys in the order they first came.
-/

set_option autoImplicit false

namespace VgiWorker.Js.OrderedMap

variable {Key Value : Type} [DecidableEq Key]

def setAll (map : OrderedMap Key Value) (entries : List (Key × Value)) : OrderedMap Key Value :=
  entries.foldl (fun map entry => map.set entry.1 entry.2) map

theorem mem_setEntry (entries : List (Key × Value)) (key : Key) (value : Value)
    (entry : Key × Value) (member : entry ∈ setEntry entries key value) :
    entry ∈ entries ∨ entry = (key, value) := by
  induction entries with
  | nil => exact .inr (List.mem_singleton.mp member)
  | cons first rest ih =>
      rw [setEntry] at member
      split at member
      · rcases List.mem_cons.mp member with here | later
        · exact .inr here
        · exact .inl (List.mem_cons_of_mem _ later)
      · rcases List.mem_cons.mp member with here | later
        · exact .inl (here ▸ List.mem_cons_self)
        · rcases ih later with held | isNew
          · exact .inl (List.mem_cons_of_mem _ held)
          · exact .inr isNew

theorem mem_setAll (map : OrderedMap Key Value) (entries : List (Key × Value))
    (entry : Key × Value) (member : entry ∈ (map.setAll entries).entries) :
    entry ∈ map.entries ∨ entry ∈ entries := by
  induction entries generalizing map with
  | nil => exact .inl member
  | cons first rest ih =>
      rcases ih _ member with held | later
      · rcases mem_setEntry _ _ _ _ held with before | isNew
        · exact .inl before
        · exact .inr (isNew ▸ List.mem_cons_self)
      · exact .inr (List.mem_cons_of_mem _ later)

theorem mem_ofEntries (entries : List (Key × Value)) (entry : Key × Value)
    (member : entry ∈ (ofEntries entries).entries) : entry ∈ entries := by
  rcases mem_setAll empty entries entry member with none | named
  · cases none
  · exact named

/-- The value set last for a key. -/
def lastOf (entries : List (Key × Value)) (key : Key) : Option Value :=
  lookupEntry entries.reverse key

private theorem lookupEntry_append (front back : List (Key × Value)) (key : Key) :
    lookupEntry (front ++ back) key = (lookupEntry front key).or (lookupEntry back key) := by
  induction front with
  | nil => rfl
  | cons entry rest ih =>
      rw [List.cons_append, lookupEntry, lookupEntry]
      split
      · rfl
      · exact ih

theorem lastOf_cons (entry : Key × Value) (rest : List (Key × Value)) (key : Key) :
    lastOf (entry :: rest) key =
      (lastOf rest key).or (if entry.1 = key then some entry.2 else none) := by
  rw [lastOf, List.reverse_cons, lookupEntry_append]
  rfl

theorem get?_setAll (map : OrderedMap Key Value) (entries : List (Key × Value)) (key : Key) :
    (map.setAll entries).get? key = (lastOf entries key).or (map.get? key) := by
  induction entries generalizing map with
  | nil => rfl
  | cons entry rest ih =>
      have later := ih (map.set entry.1 entry.2)
      rw [setAll, List.foldl_cons, ← setAll, later, get?_set, lastOf_cons]
      cases lastOf rest key with
      | some value => rfl
      | none =>
          by_cases here : entry.1 = key
          · simp [here]
          · simp [here]

private theorem keys_setEntry (entries others : List (Key × Value)) (key : Key)
    (value other : Value) (same : entries.map Prod.fst = others.map Prod.fst) :
    (setEntry entries key value).map Prod.fst = (setEntry others key other).map Prod.fst := by
  induction entries generalizing others with
  | nil =>
      have empty : others = [] := List.map_eq_nil_iff.mp same.symm
      subst empty
      rfl
  | cons entry rest ih =>
      cases others with
      | nil => cases same
      | cons second others =>
          obtain ⟨here, later⟩ := List.cons.inj same
          unfold setEntry
          rw [here]
          split
          · simp [later]
          · simp [here, ih others later]

theorem keys_setAll (map other : OrderedMap Key Value) (entries others : List (Key × Value))
    (start : map.keys = other.keys) (same : entries.map Prod.fst = others.map Prod.fst) :
    (map.setAll entries).keys = (other.setAll others).keys := by
  induction entries generalizing map other others with
  | nil =>
      have empty : others = [] := List.map_eq_nil_iff.mp same.symm
      subst empty
      exact start
  | cons entry rest ih =>
      cases others with
      | nil => cases same
      | cons second others =>
          obtain ⟨here, later⟩ := List.cons.inj same
          refine ih (map.set entry.1 entry.2) (other.set second.1 second.2) others ?_ later
          have here : entry.1 = second.1 := here
          rw [← here]
          exact keys_setEntry map.entries other.entries entry.1 entry.2 second.2 start

private theorem entries_ext (entries others : List (Key × Value))
    (nodup : (entries.map Prod.fst).Nodup) (same : entries.map Prod.fst = others.map Prod.fst)
    (lookups : ∀ key ∈ entries.map Prod.fst, lookupEntry entries key = lookupEntry others key) :
    entries = others := by
  induction entries generalizing others with
  | nil => exact (List.map_eq_nil_iff.mp same.symm).symm
  | cons entry rest ih =>
      cases others with
      | nil => cases same
      | cons second others =>
          obtain ⟨key, value⟩ := entry
          obtain ⟨other, held⟩ := second
          obtain ⟨rfl, later⟩ := List.cons.inj same
          obtain ⟨absent, distinct⟩ := List.nodup_cons.mp nodup
          have here := lookups key List.mem_cons_self
          simp only [lookupEntry, if_pos] at here
          cases here
          refine congrArg _ (ih others distinct later fun other member => ?_)
          have there := lookups other (List.mem_cons_of_mem _ member)
          have differs : key ≠ other := by
            rintro rfl
            exact absent member
          simpa [lookupEntry, differs] using there

theorem ext_get? (map other : OrderedMap Key Value) (same : map.keys = other.keys)
    (lookups : ∀ key ∈ map.keys, map.get? key = other.get? key) : map = other := by
  obtain ⟨entries, nodup⟩ := map
  obtain ⟨others, _⟩ := other
  obtain rfl := entries_ext entries others nodup same lookups
  rfl

/-- Runs over the same keys come to one map exactly when they agree on the last values. -/
theorem setAll_eq_iff (entries others : List (Key × Value))
    (same : entries.map Prod.fst = others.map Prod.fst) :
    (empty : OrderedMap Key Value).setAll entries = empty.setAll others ↔
      ∀ key ∈ entries.map Prod.fst, lastOf entries key = lastOf others key := by
  constructor
  · intro equal key _
    have lookups := congrArg (fun map => get? map key) equal
    simpa [get?_setAll] using lookups
  · intro agree
    refine ext_get? _ _ (keys_setAll empty empty entries others rfl same) fun key member => ?_
    rw [get?_setAll, get?_setAll, agree key (mem_keys_of_ofEntries entries key member)]

end VgiWorker.Js.OrderedMap
