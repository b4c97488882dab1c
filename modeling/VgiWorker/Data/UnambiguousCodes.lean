import Mathlib.Data.List.Forall2

/-!
# Unambiguous codes

A code is unambiguous when two codewords with anything behind them are told apart: the
values agree and so does what follows. Codes that are unambiguous one after the other
are unambiguous together, also behind a flag and behind a count.
-/

set_option autoImplicit false

namespace VgiWorker.UnambiguousCodes

variable {Symbol α β : Type}

/-- Unambiguous among the values that `Valid` admits. -/
def Unambiguous (Valid : α → Prop) (code : α → List Symbol) : Prop :=
  ∀ left right rest rest', Valid left → Valid right →
    code left ++ rest = code right ++ rest' → left = right ∧ rest = rest'

variable {Valid : α → Prop} {code : α → List Symbol}

theorem unambiguous_of_width (width : Nat)
    (length : ∀ value, Valid value → (code value).length = width)
    (injective : ∀ left right, Valid left → Valid right → code left = code right → left = right) :
    Unambiguous Valid code := by
  intro left right rest rest' leftValid rightValid same
  obtain ⟨codes, rests⟩ := List.append_inj same
    ((length left leftValid).trans (length right rightValid).symm)
  exact ⟨injective left right leftValid rightValid codes, rests⟩

/-- The second code may depend on the first value. -/
theorem Unambiguous.andThen {Later : α → β → Prop} {later : α → β → List Symbol}
    (first : Unambiguous Valid code) (second : ∀ value, Unambiguous (Later value) (later value)) :
    Unambiguous (fun pair : α × β => Valid pair.1 ∧ Later pair.1 pair.2)
      (fun pair => code pair.1 ++ later pair.1 pair.2) := by
  rintro ⟨left, leftNext⟩ ⟨right, rightNext⟩ rest rest' ⟨leftValid, leftLater⟩
    ⟨rightValid, rightLater⟩ same
  dsimp only at same
  rw [List.append_assoc, List.append_assoc] at same
  obtain ⟨rfl, behind⟩ := first left right _ _ leftValid rightValid same
  obtain ⟨rfl, rests⟩ := second left leftNext rightNext rest rest' leftLater rightLater behind
  exact ⟨rfl, rests⟩

/-- A value behind its length. -/
theorem unambiguous_behind_length {Counts : Nat → Prop} {count : Nat → List Symbol}
    (counted : Unambiguous Counts count) :
    Unambiguous (fun value : List Symbol => Counts value.length)
      (fun value => count value.length ++ value) := by
  intro left right rest rest' leftValid rightValid same
  rw [List.append_assoc, List.append_assoc] at same
  obtain ⟨lengths, same⟩ := counted _ _ _ _ leftValid rightValid same
  exact List.append_inj same lengths

/-- Nothing, or a value behind a mark. -/
def optional (absent present : List Symbol) (code : α → List Symbol) : Option α → List Symbol
  | none => absent
  | some value => present ++ code value

theorem unambiguous_optional (absent present : List Symbol) (width : absent.length = present.length)
    (different : absent ≠ present) (each : Unambiguous Valid code) :
    Unambiguous (fun value? => ∀ value ∈ value?, Valid value) (optional absent present code) := by
  intro left right rest rest' leftValid rightValid same
  cases left with
  | none =>
      cases right with
      | none => exact ⟨rfl, List.append_cancel_left same⟩
      | some right =>
          simp only [optional, List.append_assoc] at same
          exact absurd (List.append_inj same width).1 different
  | some left =>
      cases right with
      | none =>
          simp only [optional, List.append_assoc] at same
          exact absurd (List.append_inj same width.symm).1.symm different
      | some right =>
          simp only [optional, List.append_assoc] at same
          obtain ⟨rfl, rests⟩ := each left right rest rest' (leftValid left rfl)
            (rightValid right rfl) (List.append_cancel_left same)
          exact ⟨rfl, rests⟩

/-- One value for each key, in a fixed order of the keys. -/
theorem Unambiguous.by_key {Key : Type} (each : Unambiguous Valid code) (keys : List Key)
    (left right : Key → α) (leftValid : ∀ key ∈ keys, Valid (left key))
    (rightValid : ∀ key ∈ keys, Valid (right key)) (rest rest' : List Symbol)
    (same : keys.flatMap (fun key => code (left key)) ++ rest =
      keys.flatMap (fun key => code (right key)) ++ rest') :
    (∀ key ∈ keys, left key = right key) ∧ rest = rest' := by
  induction keys with
  | nil => exact ⟨nofun, same⟩
  | cons key keys ih =>
      rw [List.flatMap_cons, List.flatMap_cons, List.append_assoc, List.append_assoc] at same
      obtain ⟨here, same⟩ := each _ _ _ _ (leftValid key List.mem_cons_self)
        (rightValid key List.mem_cons_self) same
      obtain ⟨others, rests⟩ := ih (fun other member => leftValid other (.tail _ member))
        (fun other member => rightValid other (.tail _ member)) same
      exact ⟨List.forall_mem_cons.mpr ⟨here, others⟩, rests⟩

/-- Values in a row of a known length. -/
theorem Unambiguous.row (each : Unambiguous Valid code) (left right : List α)
    (length : left.length = right.length) (leftValid : ∀ value ∈ left, Valid value)
    (rightValid : ∀ value ∈ right, Valid value) (rest rest' : List Symbol)
    (same : left.flatMap code ++ rest = right.flatMap code ++ rest') :
    left = right ∧ rest = rest' := by
  induction left generalizing right with
  | nil =>
      cases right with
      | nil => exact ⟨rfl, same⟩
      | cons value right => cases length
  | cons value left ih =>
      cases right with
      | nil => cases length
      | cons other right =>
          rw [List.flatMap_cons, List.flatMap_cons, List.append_assoc, List.append_assoc] at same
          obtain ⟨rfl, others⟩ := each value other _ _ (leftValid value List.mem_cons_self)
            (rightValid other List.mem_cons_self) same
          obtain ⟨rfl, rests⟩ := ih right (Nat.succ.inj length)
            (fun value member => leftValid value (.tail _ member))
            (fun value member => rightValid value (.tail _ member)) others
          exact ⟨rfl, rests⟩

/-- Values in a row, each of which leaves something to read. -/
theorem Unambiguous.flatMap_inj (each : Unambiguous Valid code)
    (nonempty : ∀ value, code value ≠ []) (left right : List α)
    (leftValid : ∀ value ∈ left, Valid value) (rightValid : ∀ value ∈ right, Valid value)
    (same : left.flatMap code = right.flatMap code) : left = right := by
  induction left generalizing right with
  | nil =>
      cases right with
      | nil => rfl
      | cons other right => exact absurd (List.append_eq_nil_iff.mp same.symm).1 (nonempty other)
  | cons value left ih =>
      cases right with
      | nil => exact absurd (List.append_eq_nil_iff.mp same).1 (nonempty value)
      | cons other right =>
          rw [List.flatMap_cons, List.flatMap_cons] at same
          obtain ⟨rfl, others⟩ := each value other _ _ (leftValid value List.mem_cons_self)
            (rightValid other List.mem_cons_self) same
          rw [ih right (fun value member => leftValid value (.tail _ member))
            (fun value member => rightValid value (.tail _ member)) others]

/-- Values in a row behind their number. -/
theorem Unambiguous.counted {Counts : Nat → Prop} {count : Nat → List Symbol}
    (each : Unambiguous Valid code) (counts : Unambiguous Counts count) :
    Unambiguous (fun values : List α => Counts values.length ∧ ∀ value ∈ values, Valid value)
      (fun values => count values.length ++ values.flatMap code) := by
  rintro left right rest rest' ⟨leftCount, leftValid⟩ ⟨rightCount, rightValid⟩ same
  rw [List.append_assoc, List.append_assoc] at same
  obtain ⟨length, same⟩ := counts _ _ _ _ leftCount rightCount same
  exact each.row left right length leftValid rightValid rest rest' same

end VgiWorker.UnambiguousCodes
