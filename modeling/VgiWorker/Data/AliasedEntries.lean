import VgiWorker.Js.OrderedMap

/-!
# Entries under several keys

Records stored in one map, each under a key of its own that must be free and under
aliases that are overwritten.
-/

set_option autoImplicit false

namespace VgiWorker.AliasedEntries

open VgiWorker.Js

variable {Key Value : Type}

structure Aliased (Key Value : Type) where
  key : Key
  aliases : List Key
  value : Value

def Aliased.keys (record : Aliased Key Value) : List Key :=
  record.key :: record.aliases

variable [DecidableEq Key]

def putAll (entries : List (Key × Value)) (keys : List Key) (value : Value) :
    List (Key × Value) :=
  keys.foldl (fun entries key => setEntry entries key value) entries

/-- Store every record; a record whose own key is reserved or stored before stops the run. -/
def storeAll (reserved : List Key) :
    List (Key × Value) → List (Aliased Key Value) → Option (List (Key × Value))
  | entries, [] => some entries
  | entries, record :: rest =>
      if record.key ∈ reserved ∨ (lookupEntry entries record.key).isSome then none
      else storeAll reserved (putAll entries record.keys record.value) rest

/-- The value of the last record that is stored under the key. -/
def lastStored : List (Aliased Key Value) → Key → Option Value
  | [], _ => none
  | record :: rest, key =>
      (lastStored rest key).or (if key ∈ record.keys then some record.value else none)

/-- No record's own key is reserved or a key of an earlier record. -/
structure Free (reserved : List Key) (records : List (Aliased Key Value)) : Prop where
  unreserved : ∀ record ∈ records, record.key ∉ reserved
  fresh : records.Pairwise fun earlier later => later.key ∉ earlier.keys

theorem lookupEntry_putAll (entries : List (Key × Value)) (keys : List Key) (value : Value)
    (key : Key) :
    lookupEntry (putAll entries keys value) key =
      if key ∈ keys then some value else lookupEntry entries key := by
  induction keys generalizing entries with
  | nil => simp [putAll]
  | cons first rest ih =>
      have later := ih (setEntry entries first value)
      simp only [putAll, List.foldl_cons] at later ⊢
      by_cases member : key ∈ rest
      · simp [later, member]
      · rw [later, if_neg member, lookupEntry_setEntry]
        by_cases same : first = key
        · simp [same]
        · simp [member, same, Ne.symm same]

theorem lookupEntry_storeAll (reserved : List Key) (entries : List (Key × Value))
    (records : List (Aliased Key Value)) (result : List (Key × Value))
    (stored : storeAll reserved entries records = some result) (key : Key) :
    lookupEntry result key = (lastStored records key).or (lookupEntry entries key) := by
  induction records generalizing entries with
  | nil =>
      cases stored
      rfl
  | cons record rest ih =>
      rw [storeAll] at stored
      split at stored
      · cases stored
      · rw [ih _ stored, lookupEntry_putAll, lastStored]
        cases lastStored rest key with
        | some value => rfl
        | none =>
            by_cases member : key ∈ record.keys
            · simp [member]
            · simp [member]

theorem storeAll_isSome_iff (reserved : List Key) (entries : List (Key × Value))
    (records : List (Aliased Key Value)) :
    (∃ result, storeAll reserved entries records = some result) ↔
      Free reserved records ∧ ∀ record ∈ records, lookupEntry entries record.key = none := by
  induction records generalizing entries with
  | nil => exact ⟨fun _ => ⟨⟨nofun, .nil⟩, nofun⟩, fun _ => ⟨entries, rfl⟩⟩
  | cons record rest ih =>
      rw [storeAll]
      constructor
      · rintro ⟨result, stored⟩
        split at stored
        · cases stored
        · rename_i free
          rw [not_or, Option.not_isSome_iff_eq_none] at free
          obtain ⟨⟨unreserved, fresh⟩, absent⟩ := (ih _).mp ⟨result, stored⟩
          have apart : ∀ later ∈ rest,
              later.key ∉ record.keys ∧ lookupEntry entries later.key = none := by
            intro later member
            have missing := absent later member
            rw [lookupEntry_putAll] at missing
            split at missing
            · cases missing
            · rename_i other
              exact ⟨other, missing⟩
          refine ⟨⟨?_, List.pairwise_cons.mpr ⟨fun later member => (apart later member).1, fresh⟩⟩, ?_⟩
          · simpa using ⟨free.1, unreserved⟩
          · simpa using ⟨free.2, fun later member => (apart later member).2⟩
      · rintro ⟨⟨unreserved, fresh⟩, absent⟩
        obtain ⟨apart, fresh⟩ := List.pairwise_cons.mp fresh
        have here := unreserved record List.mem_cons_self
        have missing := absent record List.mem_cons_self
        rw [if_neg (by simp [here, missing])]
        refine (ih _).mpr ⟨⟨fun later member => unreserved later (List.mem_cons_of_mem _ member),
          fresh⟩, fun later member => ?_⟩
        rw [lookupEntry_putAll, if_neg (apart later member)]
        exact absent later (List.mem_cons_of_mem _ member)

private theorem lastStored_some (records : List (Aliased Key Value)) (key : Key) (value : Value)
    (last : lastStored records key = some value) :
    ∃ record ∈ records, key ∈ record.keys ∧ record.value = value := by
  induction records with
  | nil => cases last
  | cons record rest ih =>
      rw [lastStored, Option.or_eq_some_iff] at last
      rcases last with later | ⟨_, here⟩
      · obtain ⟨found, member, named, same⟩ := ih later
        exact ⟨found, List.mem_cons_of_mem _ member, named, same⟩
      · split at here
        · rename_i named
          cases here
          exact ⟨record, List.mem_cons_self, named, rfl⟩
        · cases here

private theorem lastStored_isSome (records : List (Aliased Key Value))
    (record : Aliased Key Value) (member : record ∈ records) (key : Key)
    (named : key ∈ record.keys) : ∃ value, lastStored records key = some value := by
  induction records with
  | nil => cases member
  | cons first rest ih =>
      rw [lastStored]
      cases later : lastStored rest key with
      | some value => exact ⟨value, rfl⟩
      | none =>
          rcases List.mem_cons.mp member with rfl | member
          · exact ⟨record.value, by simp [named]⟩
          · obtain ⟨value, found⟩ := ih member
            cases later.symm.trans found

/-- Each record is the last under all its keys exactly when records that share a key share the
value. -/
theorem lastStored_own_iff (records : List (Aliased Key Value)) :
    (∀ record ∈ records, ∀ key ∈ record.keys, lastStored records key = some record.value) ↔
      records.Pairwise fun earlier later =>
        ∀ key ∈ later.keys, key ∈ earlier.keys → later.value = earlier.value := by
  induction records with
  | nil => exact ⟨fun _ => .nil, fun _ => nofun⟩
  | cons record rest ih =>
      rw [List.pairwise_cons]
      constructor
      · intro own
        refine ⟨fun later member key named shared => ?_, ih.mp fun later member key named => ?_⟩
        · have last := own later (List.mem_cons_of_mem _ member) key named
          exact Option.some.inj (last.symm.trans (own record List.mem_cons_self key shared))
        · have last := own later (List.mem_cons_of_mem _ member) key named
          obtain ⟨value, found⟩ := lastStored_isSome rest later member key named
          rw [lastStored, found, Option.some_or] at last
          exact found.trans last
      · rintro ⟨shares, apart⟩ found member key named
        rw [lastStored]
        rcases List.mem_cons.mp member with rfl | member
        · cases later : lastStored rest key with
          | none => simp [named]
          | some value =>
              obtain ⟨other, otherMember, otherNamed, same⟩ := lastStored_some rest key value later
              rw [Option.some_or, ← same, shares other otherMember key otherNamed named]
        · rw [ih.mpr apart found member key named, Option.some_or]

end VgiWorker.AliasedEntries
