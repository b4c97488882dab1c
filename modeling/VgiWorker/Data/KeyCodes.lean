import Mathlib.Data.List.Dedup
import Mathlib.Data.List.Forall2
import VgiWorker.Data.Result

/-!
# Codes by key

Items numbered by their keys in order of first occurrence: equal keys share a
code, and a code names the first item with its key.
-/

set_option autoImplicit false

namespace VgiWorker.KeyCodes

variable {Item Key : Type} [DecidableEq Key]

/-- The items that name the codes, with the code of each item; `order` names the codes given
out before. -/
def assign (key : Item → Key) : List Item → List Item → List Item × List Nat
  | order, [] => (order, [])
  | order, item :: rest =>
      match order.findIdx? fun other => key other = key item with
      | some code =>
          let (all, codes) := assign key order rest
          (all, code :: codes)
      | none =>
          let (all, codes) := assign key (order ++ [item]) rest
          (all, order.length :: codes)

variable (key : Item → Key)

theorem assign_known (order rest : List Item) (item : Item) (code : Nat)
    (found : order.findIdx? (fun other => key other = key item) = some code) :
    assign key order (item :: rest) =
      ((assign key order rest).1, code :: (assign key order rest).2) := by
  simp [assign, found]

theorem assign_new (order rest : List Item) (item : Item)
    (absent : order.findIdx? (fun other => key other = key item) = none) :
    assign key order (item :: rest) =
      ((assign key (order ++ [item]) rest).1,
        order.length :: (assign key (order ++ [item]) rest).2) := by
  simp [assign, absent]

theorem order_isPrefix (order items : List Item) : order <+: (assign key order items).1 := by
  induction items generalizing order with
  | nil => exact List.prefix_refl order
  | cons item rest ih =>
      cases found : order.findIdx? fun other => key other = key item with
      | some code =>
          rw [assign_known key order rest item code found]
          exact ih order
      | none =>
          rw [assign_new key order rest item found]
          exact (List.prefix_append order [item]).trans (ih (order ++ [item]))

private theorem getElem?_of_prefix {order all : List Item} (start : order <+: all) {code : Nat}
    {item : Item} (here : order[code]? = some item) : all[code]? = some item := by
  obtain ⟨rest, rfl⟩ := start
  have bound := (List.getElem?_eq_some_iff.mp here).1
  rw [List.getElem?_append_left bound, here]

/-- The code of an item names an item with its key. -/
theorem codes_name (order items : List Item) :
    List.Forall₂ (fun item code => ∃ first, (assign key order items).1[code]? = some first ∧
      key first = key item) items (assign key order items).2 := by
  induction items generalizing order with
  | nil => exact .nil
  | cons item rest ih =>
      cases found : order.findIdx? fun other => key other = key item with
      | some code =>
          rw [assign_known key order rest item code found]
          refine .cons ?_ (ih order)
          obtain ⟨bound, same, _⟩ := List.findIdx?_eq_some_iff_getElem.mp found
          exact ⟨order[code], getElem?_of_prefix (order_isPrefix key order rest)
            (List.getElem?_eq_getElem bound), by simpa using same⟩
      | none =>
          rw [assign_new key order rest item found]
          refine .cons ⟨item, ?_, rfl⟩ (ih (order ++ [item]))
          exact getElem?_of_prefix (order_isPrefix key (order ++ [item]) rest) (by simp)

theorem keys_nodup (order items : List Item) (distinct : (order.map key).Nodup) :
    ((assign key order items).1.map key).Nodup := by
  induction items generalizing order with
  | nil => exact distinct
  | cons item rest ih =>
      cases found : order.findIdx? fun other => key other = key item with
      | some code =>
          rw [assign_known key order rest item code found]
          exact ih order distinct
      | none =>
          rw [assign_new key order rest item found]
          apply ih
          have fresh : key item ∉ order.map key := by
            intro member
            obtain ⟨other, inside, same⟩ := List.mem_map.mp member
            have differs := List.findIdx?_eq_none_iff.mp found other inside
            simp [same] at differs
          rw [List.map_append, List.map_cons, List.map_nil, ← List.concat_eq_append]
          exact distinct.concat fresh

/-- Each code past the old ones is that of the item that names it. -/
theorem code_used (order items : List Item) (code : Nat) (first : Item)
    (named : (assign key order items).1[code]? = some first) (past : order.length ≤ code) :
    ∃ position : Nat, items[position]? = some first ∧
      (assign key order items).2[position]? = some code := by
  induction items generalizing order with
  | nil =>
      have bound := (List.getElem?_eq_some_iff.mp named).1
      exact absurd bound (Nat.not_lt.mpr past)
  | cons item rest ih =>
      cases found : order.findIdx? fun other => key other = key item with
      | some known =>
          rw [assign_known key order rest item known found] at named ⊢
          obtain ⟨position, here, coded⟩ := ih order named past
          exact ⟨position + 1, here, coded⟩
      | none =>
          rw [assign_new key order rest item found] at named ⊢
          by_cases own : code = order.length
          · have last : (order ++ [item])[order.length]? = some item := by simp
            have start := getElem?_of_prefix (order_isPrefix key (order ++ [item]) rest) last
            rw [← own] at start
            have same : some item = some first := start.symm.trans named
            exact ⟨0, same, by rw [own]; rfl⟩
          · have later : (order ++ [item]).length ≤ code := by
              rw [List.length_append, List.length_singleton]
              omega
            obtain ⟨position, here, coded⟩ := ih (order ++ [item]) named later
            exact ⟨position + 1, here, coded⟩

/-! ## From the start -/

/-- The item that names the code of another one. -/
theorem code_at (items : List Item) (position : Nat) (item : Item)
    (here : items[position]? = some item) :
    ∃ code first, (assign key [] items).2[position]? = some code ∧
      (assign key [] items).1[code]? = some first ∧ key first = key item := by
  obtain ⟨code, coded, first, named, same⟩ :=
    forall₂_getElem? (codes_name key [] items) position item here
  exact ⟨code, first, coded, named, same⟩

theorem code_first (items : List Item) (code : Nat) (first : Item)
    (named : (assign key [] items).1[code]? = some first) :
    ∃ position : Nat, items[position]? = some first ∧
      (assign key [] items).2[position]? = some code :=
  code_used key [] items code first named (Nat.zero_le code)

/-- Codes tell keys apart. -/
theorem code_eq_of_key_eq (items : List Item) (left right : Nat) (leftItem rightItem : Item)
    (leftNamed : (assign key [] items).1[left]? = some leftItem)
    (rightNamed : (assign key [] items).1[right]? = some rightItem)
    (same : key leftItem = key rightItem) : left = right := by
  have distinct := keys_nodup key [] items List.nodup_nil
  have leftKey : ((assign key [] items).1.map key)[left]? = some (key rightItem) := by
    rw [List.getElem?_map, leftNamed, Option.map_some, same]
  have rightKey : ((assign key [] items).1.map key)[right]? = some (key rightItem) := by
    rw [List.getElem?_map, rightNamed, Option.map_some]
  obtain ⟨bound, _⟩ := List.getElem?_eq_some_iff.mp leftKey
  exact (List.getElem?_inj bound distinct).mp (leftKey.trans rightKey.symm)

/-- As many codes as there are keys. -/
theorem length_assign (items : List Item) :
    (assign key [] items).1.length = (items.map key).dedup.length := by
  have same : ((assign key [] items).1.map key).Perm (items.map key).dedup := by
    refine (List.perm_ext_iff_of_nodup (keys_nodup key [] items List.nodup_nil)
      (List.nodup_dedup _)).mpr ?_
    intro name
    rw [List.mem_dedup, List.mem_map, List.mem_map]
    constructor
    · rintro ⟨first, member, rfl⟩
      obtain ⟨code, named⟩ := List.mem_iff_getElem?.mp member
      obtain ⟨position, here, _⟩ := code_first key items code first named
      exact ⟨first, List.mem_of_getElem? here, rfl⟩
    · rintro ⟨item, member, rfl⟩
      obtain ⟨position, here⟩ := List.mem_iff_getElem?.mp member
      obtain ⟨code, first, _, named, sameKey⟩ := code_at key items position item here
      exact ⟨first, List.mem_of_getElem? named, sameKey⟩
  simpa using same.length_eq

omit [DecidableEq Key] in
private theorem findIdx?_congr (items : List Item) (left right : Item → Bool)
    (agree : ∀ item ∈ items, left item = right item) :
    items.findIdx? left = items.findIdx? right := by
  induction items with
  | nil => rfl
  | cons item rest ih =>
      rw [List.findIdx?_cons, List.findIdx?_cons, agree item List.mem_cons_self,
        ih fun other member => agree other (List.mem_cons_of_mem _ member)]

/-- Only the equalities between keys matter. -/
theorem assign_congr {Other : Type} [DecidableEq Other] (other : Item → Other)
    (order items : List Item)
    (agree : ∀ left ∈ order ++ items, ∀ right ∈ order ++ items,
      key left = key right ↔ other left = other right) :
    assign key order items = assign other order items := by
  induction items generalizing order with
  | nil => rfl
  | cons item rest ih =>
      have itemMember : item ∈ order ++ item :: rest := by simp
      have same : order.findIdx? (fun first => key first = key item) =
          order.findIdx? (fun first => other first = other item) := by
        apply findIdx?_congr
        intro first member
        simp [agree first (List.mem_append_left _ member) item itemMember]
      have known := ih order fun left leftMember right rightMember =>
        agree left (by simp at leftMember ⊢; tauto) right (by simp at rightMember ⊢; tauto)
      have grown := ih (order ++ [item]) fun left leftMember right rightMember =>
        agree left (by simpa using leftMember) right (by simpa using rightMember)
      simp only [assign, same, known, grown]

end VgiWorker.KeyCodes
