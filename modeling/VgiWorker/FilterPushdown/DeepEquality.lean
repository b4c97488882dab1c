import VgiWorker.FilterPushdown.Evaluate
import VgiWorker.Js.Number
import VgiWorker.Js.NumberProperties

/-!
# Deep equality

`deepEqual` compares containers member by member, whatever their kinds, and
atoms as numbers, texts and so on. On values whose objects name each member
once it is an equivalence.
-/

set_option autoImplicit false

namespace VgiWorker.FilterPushdown

open VgiWorker.Js VgiWorker.Arrow

/-! ## Members -/

mutual

/-- Every object in the value names each of its members once. -/
def NamesDistinct : Value → Prop
  | .array elements => ElementsDistinct elements
  | .object entries => (entries.map Prod.fst).Nodup ∧ MembersDistinct entries
  | _ => True

def ElementsDistinct : List Value → Prop
  | [] => True
  | element :: rest => NamesDistinct element ∧ ElementsDistinct rest

def MembersDistinct : List (Text × Value) → Prop
  | [] => True
  | (_, value) :: rest => NamesDistinct value ∧ MembersDistinct rest

end

private theorem elementsDistinct_mem (elements : List Value) (distinct : ElementsDistinct elements) :
    ∀ element ∈ elements, NamesDistinct element := by
  induction elements with
  | nil => exact fun _ member => absurd member List.not_mem_nil
  | cons first rest ih =>
      intro element member
      cases member with
      | head => exact distinct.1
      | tail _ member => exact ih distinct.2 element member

private theorem membersDistinct_mem (entries : List (Text × Value))
    (distinct : MembersDistinct entries) : ∀ entry ∈ entries, NamesDistinct entry.2 := by
  induction entries with
  | nil => exact fun _ member => absurd member List.not_mem_nil
  | cons first rest ih =>
      intro entry member
      cases member with
      | head => exact distinct.1
      | tail _ member => exact ih distinct.2 entry member

/-- The members of elements from `start` on. -/
def indexed (start : Nat) (elements : List Value) : List (Text × Value) :=
  (elements.zipIdx start).map fun entry => (Number.decimal entry.2, entry.1)

def byteValues (bytes : Bytes) : List Value :=
  bytes.map fun byte => .number (.ofNat byte.toNat)

theorem objectEntries_array (elements : List Value) :
    objectEntries (.array elements) = indexed 0 elements := rfl

theorem objectEntries_bytes (bytes : Bytes) :
    objectEntries (.bytes bytes) = indexed 0 (byteValues bytes) := by
  simp only [objectEntries, indexed, byteValues, List.zipIdx_map, List.map_map]
  rfl

private theorem mem_indexed (elements : List Value) (start : Nat) (entry : Text × Value)
    (member : entry ∈ indexed start elements) : entry.2 ∈ elements := by
  obtain ⟨⟨element, index⟩, inZip, rfl⟩ := List.mem_map.mp member
  exact List.fst_mem_of_mem_zipIdx inZip

private theorem indexed_keys (elements : List Value) (start : Nat) :
    ((indexed start elements).map Prod.fst).Nodup ∧
      ∀ key ∈ (indexed start elements).map Prod.fst, ∃ index, start ≤ index ∧
        key = Number.decimal index := by
  induction elements generalizing start with
  | nil => exact ⟨List.nodup_nil, fun _ member => absurd member List.not_mem_nil⟩
  | cons element rest ih =>
      obtain ⟨nodup, later⟩ := ih (start + 1)
      have whole : (indexed start (element :: rest)).map Prod.fst =
          Number.decimal start :: (indexed (start + 1) rest).map Prod.fst := rfl
      rw [whole]
      constructor
      · refine List.nodup_cons.mpr ⟨fun member => ?_, nodup⟩
        obtain ⟨index, above, same⟩ := later _ member
        have equal := Number.decimal_injective _ _ same
        omega
      · intro key member
        cases member with
        | head => exact ⟨start, Nat.le_refl start, rfl⟩
        | tail _ member =>
            obtain ⟨index, above, same⟩ := later key member
            exact ⟨index, by omega, same⟩

theorem objectEntries_nodup (value : Value) (distinct : NamesDistinct value) :
    ((objectEntries value).map Prod.fst).Nodup := by
  cases value with
  | array elements => exact (indexed_keys elements 0).1
  | bytes bytes =>
      rw [objectEntries_bytes]
      exact (indexed_keys _ 0).1
  | object entries => exact distinct.1
  | _ => exact List.nodup_nil

theorem objectEntries_distinct (value : Value) (distinct : NamesDistinct value) :
    ∀ entry ∈ objectEntries value, NamesDistinct entry.2 := by
  cases value with
  | array elements =>
      exact fun entry member =>
        elementsDistinct_mem elements distinct entry.2 (mem_indexed elements 0 entry member)
  | bytes bytes =>
      rw [objectEntries_bytes]
      intro entry member
      obtain ⟨byte, _, same⟩ := List.mem_map.mp (mem_indexed _ 0 entry member)
      rw [← same]
      trivial
  | object entries => exact membersDistinct_mem entries distinct.2
  | _ => exact fun _ member => absurd member List.not_mem_nil

private theorem holds_bytes (holds : Value → Prop)
    (step : ∀ value, (∀ entry ∈ objectEntries value, holds entry.2) → holds value)
    (bytes : Bytes) : holds (.bytes bytes) := by
  refine step _ fun entry member => ?_
  rw [objectEntries_bytes] at member
  obtain ⟨byte, _, same⟩ := List.mem_map.mp (mem_indexed _ 0 entry member)
  rw [← same]
  exact step _ fun _ member => absurd member List.not_mem_nil

mutual

/-- Induction on a value through its members. -/
theorem members_induction {holds : Value → Prop}
    (step : ∀ value, (∀ entry ∈ objectEntries value, holds entry.2) → holds value) :
    ∀ value : Value, holds value
  | .null => step _ fun _ member => absurd member List.not_mem_nil
  | .bool _ => step _ fun _ member => absurd member List.not_mem_nil
  | .number _ => step _ fun _ member => absurd member List.not_mem_nil
  | .bigint _ => step _ fun _ member => absurd member List.not_mem_nil
  | .string _ => step _ fun _ member => absurd member List.not_mem_nil
  | .bytes bytes => holds_bytes holds step bytes
  | .array elements => step _ fun entry member =>
      elements_induction step elements entry.2 (mem_indexed elements 0 entry member)
  | .object entries => step _ fun entry member => entries_induction step entries entry member

theorem elements_induction {holds : Value → Prop}
    (step : ∀ value, (∀ entry ∈ objectEntries value, holds entry.2) → holds value) :
    ∀ (elements : List Value), ∀ element ∈ elements, holds element
  | [], _, member => absurd member List.not_mem_nil
  | first :: rest, element, member => by
      cases member with
      | head => exact members_induction step first
      | tail _ member => exact elements_induction step rest element member

theorem entries_induction {holds : Value → Prop}
    (step : ∀ value, (∀ entry ∈ objectEntries value, holds entry.2) → holds value) :
    ∀ (entries : List (Text × Value)), ∀ entry ∈ entries, holds entry.2
  | [], _, member => absurd member List.not_mem_nil
  | (_, value) :: rest, entry, member => by
      cases member with
      | head => exact members_induction step value
      | tail _ member => exact entries_induction step rest entry member

end

/-! ## Member by member -/

/-- The members agree: as many on both sides, and each on the left with its namesake. -/
def SameMembers (left right : List (Text × Value)) : Prop :=
  left.length = right.length ∧
    ∀ entry ∈ left, ∃ other, lookupEntry right entry.1 = some other ∧
      deepEqual entry.2 other = true

private theorem deepEqualEntries_iff (left right : List (Text × Value)) :
    deepEqualEntries left right = true ↔
      ∀ entry ∈ left, ∃ other, lookupEntry right entry.1 = some other ∧
        deepEqual entry.2 other = true := by
  induction left with
  | nil => simp [deepEqualEntries]
  | cons entry rest ih =>
      rw [deepEqualEntries, Bool.and_eq_true, ih, List.forall_mem_cons]
      cases lookupEntry right entry.1 <;> simp

private theorem deepEqualIndexed_iff (left : List Value) (start : Nat)
    (right : List (Text × Value)) :
    deepEqualIndexed left start right = true ↔
      ∀ entry ∈ indexed start left, ∃ other, lookupEntry right entry.1 = some other ∧
        deepEqual entry.2 other = true := by
  induction left generalizing start with
  | nil => simp [deepEqualIndexed, indexed]
  | cons value rest ih =>
      have whole : indexed start (value :: rest) =
          (Number.decimal start, value) :: indexed (start + 1) rest := rfl
      rw [deepEqualIndexed, Bool.and_eq_true, ih, whole, List.forall_mem_cons]
      cases lookupEntry right (Number.decimal start) <;> simp

private theorem lookup_indexed (elements : List Value) (start index : Nat) :
    lookupEntry (indexed start elements) (Number.decimal (start + index)) = elements[index]? := by
  induction elements generalizing start index with
  | nil => rfl
  | cons value rest ih =>
      have whole : indexed start (value :: rest) =
          (Number.decimal start, value) :: indexed (start + 1) rest := rfl
      cases index with
      | zero => simp [whole, lookupEntry]
      | succ index =>
          have different : Number.decimal start ≠ Number.decimal (start + (index + 1)) := by
            intro same
            have equal := Number.decimal_injective _ _ same
            omega
          have shifted := ih (start + 1) index
          rw [Nat.add_assoc, Nat.add_comm 1] at shifted
          rw [whole, lookupEntry, if_neg different, shifted, List.getElem?_cons_succ]

private theorem deepEqualElements_iff (left right : List Value) (start : Nat) :
    deepEqualElements left right = true ↔
      left.length = right.length ∧ deepEqualIndexed left start (indexed start right) = true := by
  induction left generalizing right start with
  | nil => cases right <;> simp [deepEqualElements, deepEqualIndexed]
  | cons value rest ih =>
      cases right with
      | nil => simp [deepEqualElements]
      | cons other others =>
          have first := lookup_indexed (other :: others) start 0
          have later : deepEqualIndexed rest (start + 1) (indexed start (other :: others)) =
              deepEqualIndexed rest (start + 1) (indexed (start + 1) others) := by
            have skip (elements : List Value) (from_ : Nat) (above : start < from_) :
                deepEqualIndexed elements from_ (indexed start (other :: others)) =
                  deepEqualIndexed elements from_ (indexed (start + 1) others) := by
              induction elements generalizing from_ with
              | nil => simp [deepEqualIndexed]
              | cons element remaining ih =>
                  have different : Number.decimal start ≠ Number.decimal from_ := fun same => by
                    have equal := Number.decimal_injective _ _ same
                    omega
                  have whole : indexed start (other :: others) =
                      (Number.decimal start, other) :: indexed (start + 1) others := rfl
                  rw [deepEqualIndexed, deepEqualIndexed, ih (from_ + 1) (by omega), whole,
                    lookupEntry, if_neg different]
            exact skip rest (start + 1) (Nat.lt_succ_self start)
          rw [Nat.add_zero, List.getElem?_cons_zero] at first
          rw [deepEqualElements, Bool.and_eq_true, ih others (start + 1), deepEqualIndexed, first,
            later, Bool.and_eq_true, List.length_cons, List.length_cons, Nat.add_right_cancel_iff]
          exact and_left_comm

theorem length_indexed (start : Nat) (elements : List Value) :
    (indexed start elements).length = elements.length := by
  simp [indexed]

private theorem rank_ofNat_byte (byte : UInt8) :
    Number.rank (.ofNat byte.toNat) = toLex (1, (byte.toNat : ℚ)) := by
  have bound := byte.toNat_lt
  have exact := Number.toRat?_ofInt_exact byte.toNat (by
    rw [abs_of_nonneg (by positivity)]
    exact_mod_cast (by omega : byte.toNat ≤ 2 ^ 53))
  have same : Number.ofNat byte.toNat = Number.ofInt byte.toNat := rfl
  rw [same]
  cases value : Number.ofInt (byte.toNat : Int) with
  | nan => simp [value, Number.toRat?] at exact
  | infinity _ => simp [value, Number.toRat?] at exact
  | negativeZero =>
      rw [value] at exact
      have zero : (0 : ℚ) = ((byte.toNat : Int) : ℚ) := Option.some.inj exact
      rw [Int.cast_natCast] at zero
      rw [← zero]
      rfl
  | finite held =>
      rw [value] at exact
      have same : held.val = ((byte.toNat : Int) : ℚ) := Option.some.inj exact
      rw [Int.cast_natCast] at same
      rw [← same]
      rfl

theorem deepEqual_numbers (left right : Number) :
    deepEqual (.number left) (.number right) = true ↔ left.rank = right.rank := by
  rw [deepEqual]
  exact Number.same_iff_rank left right

private theorem deepEqual_bytes (left right : UInt8) :
    deepEqual (.number (.ofNat left.toNat)) (.number (.ofNat right.toNat)) = true ↔
      left = right := by
  rw [deepEqual_numbers, rank_ofNat_byte, rank_ofNat_byte, toLex_inj, Prod.mk.injEq]
  constructor
  · intro same
    exact UInt8.toNat.inj (by exact_mod_cast same.2)
  · rintro rfl
    exact ⟨rfl, rfl⟩

private theorem bytes_eq_iff (left right : Bytes) :
    left = right ↔ deepEqualElements (byteValues left) (byteValues right) = true := by
  induction left generalizing right with
  | nil => cases right <;> simp [byteValues, deepEqualElements]
  | cons first rest ih =>
      cases right with
      | nil => simp [byteValues, deepEqualElements]
      | cons other others =>
          have rests := ih others
          simp only [byteValues, List.map_cons, deepEqualElements, Bool.and_eq_true,
            deepEqual_bytes, List.cons.injEq] at rests ⊢
          rw [rests]

/-- A byte against a member of the other side. -/
private theorem byteMember_iff (byte : UInt8) (other : Option Value) :
    (match other with
      | some (.number value) => value.strictEq (.ofNat byte.toNat)
      | _ => false) = true ↔
      ∃ value, other = some value ∧ deepEqual (.number (.ofNat byte.toNat)) value = true := by
  have notNan : (Number.ofNat byte.toNat).isNaN = false := by
    cases isNan : (Number.ofNat byte.toNat).isNaN with
    | false => rfl
    | true =>
        have same := (Number.same_iff_rank (.ofNat byte.toNat) .nan).mp (by rw [isNan]; simp [Number.isNaN])
        rw [rank_ofNat_byte] at same
        simp [Number.rank] at same
  cases other with
  | none => simp
  | some value =>
      cases value with
      | number value =>
          have same := Number.same_iff_rank value (.ofNat byte.toNat)
          rw [notNan, Bool.and_false, Bool.or_false] at same
          simp only [same, Option.some.injEq, exists_eq_left', deepEqual_numbers]
          exact eq_comm
      | _ => simp [deepEqual, Value.strictEq]

private theorem bytesMembers_iff (bytes : Bytes) (right : Value) :
    (bytes.zipIdx.all fun entry =>
      match lookupEntry (objectEntries right) (Number.decimal entry.2) with
      | some (.number value) => value.strictEq (.ofNat entry.1.toNat)
      | _ => false) = true ↔
      ∀ entry ∈ objectEntries (.bytes bytes), ∃ other,
        lookupEntry (objectEntries right) entry.1 = some other ∧
          deepEqual entry.2 other = true := by
  simp only [List.all_eq_true, byteMember_iff, objectEntries, List.forall_mem_map]

/-- Two containers are equal when their members agree. -/
theorem deepEqual_containers (left right : Value) (leftObject : left.isObject = true)
    (rightObject : right.isObject = true) :
    deepEqual left right = true ↔ SameMembers (objectEntries left) (objectEntries right) := by
  have arrays (elements others : List Value) : deepEqualElements elements others = true ↔
      SameMembers (indexed 0 elements) (indexed 0 others) := by
    rw [deepEqualElements_iff elements others 0, deepEqualIndexed_iff, SameMembers, length_indexed,
      length_indexed]
  cases left with
  | array elements =>
      have mixed (given : deepEqual (.array elements) right =
          (right.isObject && elements.length == (objectEntries right).length &&
            deepEqualIndexed elements 0 (objectEntries right))) :
          deepEqual (.array elements) right = true ↔
            SameMembers (objectEntries (.array elements)) (objectEntries right) := by
        rw [given, Bool.and_eq_true, Bool.and_eq_true, deepEqualIndexed_iff, beq_iff_eq,
          objectEntries_array, SameMembers, length_indexed]
        exact and_congr_left fun _ => and_iff_right rightObject
      cases right with
      | array others =>
          rw [deepEqual]
          exact arrays elements others
      | bytes bytes => exact mixed (by rw [deepEqual]; simp)
      | object entries => exact mixed (by rw [deepEqual]; simp)
      | _ => cases rightObject
  | bytes bytes =>
      have members := bytesMembers_iff bytes right
      have length : (objectEntries (.bytes bytes)).length = bytes.length := by
        simp [objectEntries]
      cases right with
      | bytes others =>
          rw [deepEqual, beq_iff_eq, bytes_eq_iff, arrays, objectEntries_bytes, objectEntries_bytes]
      | array others =>
          rw [deepEqual, SameMembers, length, Bool.and_eq_true, Bool.and_eq_true, beq_iff_eq]
          · exact and_congr (and_iff_right rightObject) members
          · simp
      | object entries =>
          rw [deepEqual, SameMembers, length, Bool.and_eq_true, Bool.and_eq_true, beq_iff_eq]
          · exact and_congr (and_iff_right rightObject) members
          · simp
      | _ => cases rightObject
  | object entries =>
      have shape : deepEqual (.object entries) right =
          (right.isObject && entries.length == (objectEntries right).length &&
            deepEqualEntries entries (objectEntries right)) := by
        cases right <;> rw [deepEqual]
      rw [shape, Bool.and_eq_true, Bool.and_eq_true, deepEqualEntries_iff, beq_iff_eq]
      simp [rightObject, SameMembers, objectEntries]
  | _ => cases leftObject

/-! ## An equivalence -/

/-- Equality of values with no members. -/
inductive SameAtom : Value → Value → Prop
  | numbers (left right : Number) (rank : left.rank = right.rank) :
      SameAtom (.number left) (.number right)
  | same (value : Value) (atom : value.isObject = false) : SameAtom value value

theorem deepEqual_atom (left right : Value) (atom : left.isObject = false) :
    deepEqual left right = true ↔ SameAtom left right := by
  constructor
  · intro equal
    cases left with
    | number left =>
        cases right with
        | number right => exact .numbers left right ((deepEqual_numbers left right).mp equal)
        | _ => simp [deepEqual, Value.strictEq] at equal
    | array elements => cases atom
    | bytes bytes => cases atom
    | object entries => cases atom
    | _ =>
        cases right <;> simp [deepEqual, Value.strictEq] at equal
        all_goals
          try subst equal
          exact .same _ atom
  · intro same
    cases same with
    | numbers left right rank => exact (deepEqual_numbers left right).mpr rank
    | same _ _ =>
        cases left with
        | number left => exact (deepEqual_numbers left left).mpr rfl
        | array elements => cases atom
        | bytes bytes => cases atom
        | object entries => cases atom
        | _ => simp [deepEqual, Value.strictEq]

theorem deepEqual_container_atom (left right : Value) (leftObject : left.isObject = true)
    (rightAtom : right.isObject = false) : deepEqual left right = false := by
  cases left with
  | array elements =>
      cases right with
      | array _ => cases rightAtom
      | bytes _ => cases rightAtom
      | object _ => cases rightAtom
      | _ => simp [deepEqual, Value.isObject]
  | bytes bytes =>
      cases right with
      | array _ => cases rightAtom
      | bytes _ => cases rightAtom
      | object _ => cases rightAtom
      | _ => simp [deepEqual, Value.isObject]
  | object entries =>
      cases right with
      | array _ => cases rightAtom
      | bytes _ => cases rightAtom
      | object _ => cases rightAtom
      | _ => simp [deepEqual, Value.isObject]
  | _ => cases leftObject

private theorem sameAtom_symm (left right : Value) (same : SameAtom left right) :
    SameAtom right left := by
  cases same with
  | numbers left right rank => exact .numbers right left rank.symm
  | same _ atom => exact .same left atom

private theorem sameAtom_trans (left middle right : Value) (first : SameAtom left middle)
    (second : SameAtom middle right) : SameAtom left right := by
  cases first with
  | numbers left middle rank =>
      cases second with
      | numbers _ right others => exact .numbers left right (rank.trans others)
      | same _ _ => exact .numbers left middle rank
  | same _ _ => exact second

private theorem isObject_of_sameAtom (left right : Value) (same : SameAtom left right) :
    right.isObject = false := by
  cases same with
  | numbers _ _ _ => rfl
  | same _ atom => exact atom

/-- A member has its namesake on either side when there are as many. -/
private theorem namesake (left right : List (Text × Value)) (leftNodup : (left.map Prod.fst).Nodup)
    (same : SameMembers left right) (entry : Text × Value) (member : entry ∈ right)
    (rightNodup : (right.map Prod.fst).Nodup) :
    ∃ other, (entry.1, other) ∈ left ∧ lookupEntry left entry.1 = some other ∧
      deepEqual other entry.2 = true := by
  obtain ⟨length, each⟩ := same
  have within : left.map Prod.fst ⊆ right.map Prod.fst := by
    intro key inLeft
    obtain ⟨found, foundMem, rfl⟩ := List.mem_map.mp inLeft
    obtain ⟨other, isOther, _⟩ := each found foundMem
    rw [← lookupEntry_isSome, isOther]
    rfl
  have perm := (leftNodup.subperm within).perm_of_length_le (by simp [length])
  obtain ⟨⟨key, other⟩, inLeft, sameKey⟩ :=
    List.mem_map.mp (perm.mem_iff.mpr (List.mem_map_of_mem member))
  have sameKey : key = entry.1 := sameKey
  subst sameKey
  obtain ⟨found, isFound, equal⟩ := each _ inLeft
  have isEntry := lookupEntry_of_mem right entry.1 entry.2 rightNodup member
  rw [isEntry] at isFound
  cases isFound
  exact ⟨other, inLeft, lookupEntry_of_mem left entry.1 other leftNodup inLeft, equal⟩

theorem deepEqual_symm (left right : Value) (leftDistinct : NamesDistinct left)
    (rightDistinct : NamesDistinct right) (equal : deepEqual left right = true) :
    deepEqual right left = true := by
  induction left using members_induction generalizing right with
  | step left ih =>
      cases leftObject : left.isObject with
      | false =>
          have same := (deepEqual_atom left right leftObject).mp equal
          exact (deepEqual_atom right left (isObject_of_sameAtom left right same)).mpr
            (sameAtom_symm left right same)
      | true =>
          cases rightObject : right.isObject with
          | false =>
              rw [deepEqual_container_atom left right leftObject rightObject] at equal
              cases equal
          | true =>
              have same := (deepEqual_containers left right leftObject rightObject).mp equal
              refine (deepEqual_containers right left rightObject leftObject).mpr
                ⟨same.1.symm, fun entry member => ?_⟩
              obtain ⟨other, inLeft, isOther, equal⟩ := namesake _ _
                (objectEntries_nodup left leftDistinct) same entry member
                (objectEntries_nodup right rightDistinct)
              exact ⟨other, isOther, ih (entry.1, other) inLeft entry.2
                (objectEntries_distinct left leftDistinct _ inLeft)
                (objectEntries_distinct right rightDistinct entry member) equal⟩

theorem deepEqual_trans (left middle right : Value) (first : deepEqual left middle = true)
    (second : deepEqual middle right = true) : deepEqual left right = true := by
  induction left using members_induction generalizing middle right with
  | step left ih =>
      cases leftObject : left.isObject with
      | false =>
          have same := (deepEqual_atom left middle leftObject).mp first
          have middleAtom := isObject_of_sameAtom left middle same
          exact (deepEqual_atom left right leftObject).mpr (sameAtom_trans left middle right same
            ((deepEqual_atom middle right middleAtom).mp second))
      | true =>
          cases middleObject : middle.isObject with
          | false =>
              rw [deepEqual_container_atom left middle leftObject middleObject] at first
              cases first
          | true =>
              cases rightObject : right.isObject with
              | false =>
                  rw [deepEqual_container_atom middle right middleObject rightObject] at second
                  cases second
              | true =>
                  have sameFirst := (deepEqual_containers left middle leftObject middleObject).mp first
                  have sameSecond :=
                    (deepEqual_containers middle right middleObject rightObject).mp second
                  refine (deepEqual_containers left right leftObject rightObject).mpr
                    ⟨sameFirst.1.trans sameSecond.1, fun entry member => ?_⟩
                  obtain ⟨between, isBetween, firstEqual⟩ := sameFirst.2 entry member
                  obtain ⟨other, isOther, secondEqual⟩ := sameSecond.2 (entry.1, between)
                    (mem_of_lookupEntry _ _ _ isBetween)
                  exact ⟨other, isOther, ih entry member between other firstEqual secondEqual⟩

end VgiWorker.FilterPushdown
