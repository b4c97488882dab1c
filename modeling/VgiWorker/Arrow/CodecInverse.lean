import VgiWorker.Arrow.CanonicalValues
import VgiWorker.Arrow.Codec

/-!
# Conversions and back

When a canonical value survives the author-facing view and the raw view of it.
Only a date can fail to: a day or a time that no `Date` holds is refused.
-/

set_option autoImplicit false

namespace VgiWorker.Arrow

open VgiWorker.Js

mutual

/-- Every date is one that a `Date` holds. -/
def DatesFit : DataType → Value → Prop
  | .date .day, value => ∀ number days, value = .number number → number.toInt? = some days →
      days.natAbs ≤ 100000000
  | .date .millisecond, value => ∀ ms, value = .bigint ms → ms.natAbs ≤ maxTime.natAbs
  | .list children, value => DatesFitItems children value
  | .fixedSizeList _ children, value => DatesFitItems children value
  | .map _ children, value => DatesFitPairs children value
  | .struct children, value => DatesFitMembers children value
  | .dictionary _ dictionary _ _, value => DatesFit dictionary value
  | _, _ => True

def DatesFitItems : List (FieldOf DataType) → Value → Prop
  | ⟨_, type, _, _⟩ :: _, value => ∀ items, value = .array items → ∀ item ∈ items, DatesFit type item
  | [], _ => True

def DatesFitPairs : List (FieldOf DataType) → Value → Prop
  | ⟨_, .struct (⟨_, keyType, _, _⟩ :: ⟨_, valueType, _, _⟩ :: _), _, _⟩ :: _, value =>
      ∀ items, value = .array items → ∀ key held, .array [key, held] ∈ items →
        DatesFit keyType key ∧ DatesFit valueType held
  | _, _ => True

def DatesFitMembers : List (FieldOf DataType) → Value → Prop
  | [], _ => True
  | ⟨name, type, _, _⟩ :: rest, value =>
      (∀ members, value = .object members → DatesFit type (cellMember members name)) ∧
        DatesFitMembers rest value

end

theorem datesFitMembers_iff (children : List Field) (members : List (Text × Value)) :
    DatesFitMembers children (.object members) ↔
      ∀ child ∈ children, DatesFit child.type (cellMember members child.name) := by
  induction children with
  | nil => exact iff_of_true trivial nofun
  | cons child rest ih =>
      obtain ⟨name, type, nullable, metadata⟩ := child
      rw [DatesFitMembers, ih, List.forall_mem_cons]
      refine and_congr_left fun _ => ⟨fun fits => fits members rfl, fun fits others same => ?_⟩
      cases same
      exact fits

/-! ## Types without children -/

private theorem isRichNull_ofValue (value : Value) :
    isRichNull (Rich.ofValue value) = isCanonicalNull value := by
  cases value <;> rfl

theorem intRange_small (bitWidth : Nat) (signed : Bool) (narrow : bitWidth ≠ 64)
    (value : Int) (low : (intRange bitWidth signed).1 ≤ value)
    (high : value ≤ (intRange bitWidth signed).2) :
    value.natAbs ≤ Number.maxSafeInteger := by
  unfold Number.maxSafeInteger
  by_cases eight : bitWidth = 8
  · subst eight
    cases signed <;> simp [intRange] at low high <;> omega
  · by_cases sixteen : bitWidth = 16
    · subst sixteen
      cases signed <;> simp [intRange] at low high <;> omega
    · cases signed <;> simp [intRange, narrow, eight, sixteen] at low high <;> omega

private theorem integerOf_ofInt (value : Int) (small : value.natAbs ≤ Number.maxSafeInteger)
    (label message : String) : integerOf (Number.ofInt value) label message = .ok value := by
  rw [integerOf, (toInt?_ofInt_safe value small).1]

theorem inSigned_small (value : Int) (inside : InSigned 32 value) :
    value.natAbs ≤ Number.maxSafeInteger := by
  unfold InSigned at inside
  unfold Number.maxSafeInteger
  omega

mutual

private theorem toValue_ofValue : ∀ value : Value, (Rich.ofValue value).toValue = value
  | .null | .bool _ | .number _ | .bigint _ | .string _ | .bytes _ => rfl
  | .array elements => by
      rw [Rich.ofValue, Rich.toValue, toElements_ofElements elements]
  | .object entries => by
      rw [Rich.ofValue, Rich.toValue, toEntries_ofEntries entries]

private theorem toElements_ofElements : ∀ elements : List Value,
    Rich.toElements (Rich.ofElements elements) = elements
  | [] => rfl
  | element :: rest => by
      rw [Rich.ofElements, Rich.toElements, toValue_ofValue element, toElements_ofElements rest]

private theorem toEntries_ofEntries : ∀ entries : List (Text × Value),
    Rich.toEntries (Rich.ofEntries entries) = entries
  | [] => rfl
  | (name, value) :: rest => by
      rw [Rich.ofEntries, Rich.toEntries, toValue_ofValue value, toEntries_ofEntries rest]

end

section

variable (dateText : Number → Text)

/-- The leaf types whose two views are one. -/
def DataType.isDated : DataType → Bool
  | .date _ => true
  | _ => false

private theorem scalarToCanonical_leaf (type : DataType) (undated : type.isDated = false)
    (value : Value) (canonical : CanonicalLeaf type value) :
    scalarToCanonical dateText type (Rich.ofValue value) = .ok value := by
  cases type with
  | bool =>
      obtain ⟨held, rfl⟩ := canonical
      rfl
  | int bitWidth signed =>
      obtain ⟨held, rfl, low, high⟩ := canonical
      by_cases wide : bitWidth = 64
      · rw [if_pos wide, Rich.ofValue, scalarToCanonical, checkInteger, if_pos ⟨low, high⟩]
      · rw [if_neg wide, Rich.ofValue, scalarToCanonical, checkInteger,
          integerOf_ofInt held (intRange_small bitWidth signed wide held low high), except_ok_bind,
          if_pos ⟨low, high⟩]
  | float precision =>
      obtain ⟨held, rfl⟩ := canonical
      rfl
  | utf8 =>
      obtain ⟨held, rfl⟩ := canonical
      rfl
  | largeUtf8 =>
      obtain ⟨held, rfl⟩ := canonical
      rfl
  | binary =>
      obtain ⟨held, rfl⟩ := canonical
      rfl
  | largeBinary =>
      obtain ⟨held, rfl⟩ := canonical
      rfl
  | fixedSizeBinary byteWidth =>
      obtain ⟨held, rfl, rfl⟩ := canonical
      simp [Rich.ofValue, scalarToCanonical, bytesToCanonical]
  | decimal bitWidth precision scale =>
      obtain ⟨held, rfl⟩ := canonical
      rfl
  | date unit => cases undated
  | time unit bitWidth =>
      obtain ⟨held, rfl, inside⟩ := canonical
      by_cases wide : bitWidth = 64
      · rw [if_pos wide, Rich.ofValue, scalarToCanonical, if_pos wide]
        rfl
      · rw [if_neg wide, Rich.ofValue, scalarToCanonical, if_neg wide, time32ToCanonical,
          integerOf_ofInt held (inSigned_small held (inside wide)), except_ok_bind]
  | timestamp unit timezone =>
      obtain ⟨held, rfl⟩ := canonical
      rfl
  | duration unit =>
      obtain ⟨held, rfl⟩ := canonical
      rfl
  | interval unit =>
      cases value with
      | _ => exact congrArg Except.ok (toValue_ofValue _)
  | _ => exact canonical.elim

private theorem scalar_union (mode : UnionMode) (typeIds : List Int) (children : List Field)
    (value : Value) :
    scalarToCanonical dateText (.union mode typeIds children) (Rich.ofValue value) =
      .ok value := by
  rw [scalarToCanonical, toValue_ofValue]
  all_goals exact nofun

private theorem scalarToRich_leaf (type : DataType) (undated : type.isDated = false)
    (value : Value) (canonical : CanonicalLeaf type value) :
    scalarToRich dateText type value = .ok (Rich.ofValue value) := by
  have back := scalarToCanonical_leaf dateText type undated value canonical
  cases type with
  | utf8 =>
      obtain ⟨held, rfl⟩ := canonical
      rfl
  | largeUtf8 =>
      obtain ⟨held, rfl⟩ := canonical
      rfl
  | date unit => cases undated
  | time unit bitWidth =>
      obtain ⟨held, rfl, inside⟩ := canonical
      by_cases wide : bitWidth = 64
      · rw [if_pos wide, Rich.ofValue, scalarToRich, if_pos wide]
        rfl
      · rw [if_neg wide, Rich.ofValue, scalarToRich, if_neg wide]
        rfl
  | _ =>
      first
      | exact canonical.elim
      | simp [scalarToRich, back]

/-! ## Dates -/

private theorem dateOfMs_fits (label : String) (ms : Int) (fits : ms.natAbs ≤ maxTime.natAbs) :
    dateOfMs label ms = .ok (.date (Number.ofInt ms)) ∧ (Number.ofInt ms).toInt? = some ms := by
  have safe : ms.natAbs ≤ Number.maxSafeInteger := Nat.le_trans fits (by decide)
  have integral := (toInt?_ofInt_safe ms safe).1
  refine ⟨?_, integral⟩
  rw [dateOfMs, makeDate, if_pos fits]
  cases number : Number.ofInt ms with
  | nan =>
      rw [number] at integral
      cases integral
  | _ => rfl

private theorem dateOfMs_refused (label : String) (ms : Int)
    (outside : ¬ms.natAbs ≤ maxTime.natAbs) (rich : Rich) : dateOfMs label ms ≠ .ok rich := by
  rw [dateOfMs, makeDate, if_neg outside]
  exact nofun

/-- A conversion that is accepted exactly where every date fits, and then comes back. -/
structure ComesBack (type : DataType) (value : Value) : Prop where
  fits : ∀ rich, canonicalToRich dateText type value = .ok rich → DatesFit type value
  back : ∀ rich, canonicalToRich dateText type value = .ok rich →
    richToCanonical dateText type rich = .ok value
  accepted : DatesFit type value → ∃ rich, canonicalToRich dateText type value = .ok rich

private theorem comesBack_day (days : Int) (inside : InSigned 32 days) :
    ComesBack dateText (.date .day) (.number (Number.ofInt days)) := by
  have converts : canonicalToRich dateText (.date .day) (.number (Number.ofInt days)) =
      dateOfMs "date32" (days * msPerDay) := by
    rw [canonicalToRich]
    · rw [if_neg (by exact Bool.false_ne_true), scalarToRich, dateDayToRich,
        integerOf_ofInt days (inSigned_small days inside), except_ok_bind]
    all_goals exact nofun
  have range : (days * msPerDay).natAbs ≤ maxTime.natAbs ↔ days.natAbs ≤ 100000000 := by
    unfold msPerDay maxTime
    omega
  have fits : DatesFit (.date .day) (.number (Number.ofInt days)) ↔ days.natAbs ≤ 100000000 := by
    have integral := (toInt?_ofInt_safe days (inSigned_small days inside)).1
    rw [DatesFit]
    refine ⟨fun each => each _ days rfl integral, fun bound number other same isOther => ?_⟩
    cases same
    cases integral.symm.trans isOther
    exact bound
  by_cases bound : days.natAbs ≤ 100000000
  · obtain ⟨date, integral⟩ := dateOfMs_fits "date32" (days * msPerDay) (range.mpr bound)
    refine ⟨fun _ _ => fits.mpr bound, fun rich isRich => ?_, fun _ => ⟨_, converts.trans date⟩⟩
    rw [converts, date] at isRich
    cases isRich
    rw [richToCanonical]
    · rw [if_neg (by exact Bool.false_ne_true), scalarToCanonical, dateDayToCanonical, dayOfTime,
        integral]
      have day : (days * msPerDay).fdiv msPerDay = days := Int.mul_fdiv_cancel days (by decide)
      dsimp only
      rw [day]
    all_goals exact nofun
  · have refused := dateOfMs_refused "date32" (days * msPerDay) fun within =>
      bound (range.mp within)
    exact ⟨fun rich isRich => absurd (converts.symm.trans isRich) (refused rich),
      fun rich isRich => absurd (converts.symm.trans isRich) (refused rich),
      fun each => absurd (fits.mp each) bound⟩

private theorem comesBack_millis (ms : Int) :
    ComesBack dateText (.date .millisecond) (.bigint ms) := by
  have fits : DatesFit (.date .millisecond) (.bigint ms) ↔ ms.natAbs ≤ maxTime.natAbs := by
    rw [DatesFit]
    refine ⟨fun each => each ms rfl, fun bound other same => ?_⟩
    cases same
    exact bound
  have converts (rich : Rich) :
      canonicalToRich dateText (.date .millisecond) (.bigint ms) = .ok rich ↔
        dateOfMs "date64" ms = .ok rich := by
    have steps : canonicalToRich dateText (.date .millisecond) (.bigint ms) =
        (bigIntToSafeNumber "date64" ms >>= fun _ => dateOfMs "date64" ms) := by
      rw [canonicalToRich]
      · rfl
      all_goals exact nofun
    rw [steps]
    by_cases safe : ms.natAbs ≤ Number.maxSafeInteger
    · rw [bigIntToSafeNumber, if_pos safe]
      exact Iff.rfl
    · have refused := dateOfMs_refused "date64" ms fun within =>
        safe (Nat.le_trans within (by decide))
      rw [bigIntToSafeNumber, if_neg safe]
      exact iff_of_false nofun (refused rich)
  by_cases bound : ms.natAbs ≤ maxTime.natAbs
  · obtain ⟨date, integral⟩ := dateOfMs_fits "date64" ms bound
    refine ⟨fun _ _ => fits.mpr bound, fun rich isRich => ?_,
      fun _ => ⟨_, (converts _).mpr date⟩⟩
    rw [converts, date] at isRich
    cases isRich
    rw [richToCanonical]
    · rw [if_neg (by exact Bool.false_ne_true), scalarToCanonical, dateMillisToCanonical, integerOf,
        integral]
      rfl
    all_goals exact nofun
  · have refused := dateOfMs_refused "date64" ms bound
    exact ⟨fun rich isRich => absurd ((converts rich).mp isRich) (refused rich),
      fun rich isRich => absurd ((converts rich).mp isRich) (refused rich),
      fun each => absurd (fits.mp each) bound⟩

private theorem canonicalToRich_leaf (type : DataType) (isLeaf : type.isLeaf = true)
    (value : Value) : canonicalToRich dateText type value =
      if isCanonicalNull value then .ok .null else scalarToRich dateText type value := by
  cases type with
  | _ =>
      first
      | exact absurd isLeaf Bool.false_ne_true
      | simp [canonicalToRich]

private theorem richToCanonical_leaf (type : DataType) (isLeaf : type.isLeaf = true)
    (value : Rich) : richToCanonical dateText type value =
      if isRichNull value then .ok .null else scalarToCanonical dateText type value := by
  cases type with
  | _ =>
      first
      | exact absurd isLeaf Bool.false_ne_true
      | simp [richToCanonical]

private theorem datesFit_undated (type : DataType) (isLeaf : type.isLeaf = true)
    (undated : type.isDated = false) (value : Value) : DatesFit type value := by
  cases type with
  | date unit => cases undated
  | _ =>
      first
      | exact absurd isLeaf Bool.false_ne_true
      | trivial

private theorem comesBack_leaf (type : DataType) (isLeaf : type.isLeaf = true) (value : Value)
    (canonical : CanonicalLeaf type value) (notNull : isCanonicalNull value = false) :
    ComesBack dateText type value := by
  cases dated : type.isDated with
  | true =>
      cases type with
      | date unit =>
          cases unit with
          | day =>
              obtain ⟨days, rfl, inside⟩ := canonical
              exact comesBack_day dateText days inside
          | millisecond =>
              obtain ⟨ms, rfl⟩ := canonical
              exact comesBack_millis dateText ms
      | _ => cases dated
  | false =>
      have converts : canonicalToRich dateText type value = .ok (Rich.ofValue value) := by
        rw [canonicalToRich_leaf dateText type isLeaf, if_neg (by simp [notNull]),
          scalarToRich_leaf dateText type dated value canonical]
      refine ⟨fun _ _ => datesFit_undated type isLeaf dated value, fun rich isRich => ?_,
        fun _ => ⟨_, converts⟩⟩
      cases converts.symm.trans isRich
      rw [richToCanonical_leaf dateText type isLeaf, if_neg (by simp [isRichNull_ofValue, notNull]),
        scalarToCanonical_leaf dateText type dated value canonical]

theorem canonical_leaf (type : DataType) (isLeaf : type.isLeaf = true) (value : Value)
    (canonical : CanonicalOf type value) :
    value = .null ∨ isCanonicalNull value = false ∧ CanonicalLeaf type value := by
  have either : value = .null ∨ CanonicalLeaf type value := by
    cases type with
    | _ =>
        first
        | exact absurd isLeaf Bool.false_ne_true
        | exact canonical
  cases value with
  | null => exact .inl rfl
  | _ => exact .inr ⟨rfl, either.resolve_left nofun⟩

/-! ## Nested types -/

private theorem comesBack_null (type : DataType) (fits : DatesFit type .null)
    (converts : canonicalToRich dateText type .null = .ok .null)
    (reverts : richToCanonical dateText type .null = .ok .null) :
    ComesBack dateText type .null := by
  refine ⟨fun _ _ => fits, fun rich isRich => ?_, fun _ => ⟨_, converts⟩⟩
  cases converts.symm.trans isRich
  exact reverts

private theorem comesBack_array (type itemType : DataType) (items : List Value)
    (forward : canonicalToRich dateText type (.array items) =
      (items.mapM (canonicalToRich dateText itemType) >>= fun rich => .ok (.array rich)))
    (backward : ∀ rich, richToCanonical dateText type (.array rich) =
      (rich.mapM (richToCanonical dateText itemType) >>= fun cells => .ok (.array cells)))
    (fits : DatesFit type (.array items) ↔ ∀ item ∈ items, DatesFit itemType item)
    (each : ∀ item ∈ items, ComesBack dateText itemType item) :
    ComesBack dateText type (.array items) := by
  refine ⟨fun rich isRich => ?_, fun rich isRich => ?_, fun inside => ?_⟩
  · rw [forward] at isRich
    obtain ⟨riches, converts, _⟩ := except_bind_ok _ _ _ isRich
    refine fits.mpr fun item member => ?_
    obtain ⟨result, _, here⟩ := except_mapM_each _ _ _ converts item member
    exact (each item member).fits result here
  · rw [forward] at isRich
    obtain ⟨riches, converts, isRich⟩ := except_bind_ok _ _ _ isRich
    cases isRich
    rw [backward, except_mapM_back _ _ items riches converts fun item member =>
      (each item member).back]
    rfl
  · obtain ⟨riches, converts⟩ := except_mapM_exists (canonicalToRich dateText itemType) items
      fun item member => (each item member).accepted (fits.mp inside item member)
    exact ⟨.array riches, by rw [forward, converts, except_ok_bind]⟩

private theorem comesBack_items (item : Field) (rest : List Field) (listSize : Option Nat)
    (value : Value) (canonical : CanonicalItems (item :: rest) listSize value)
    (ih : ∀ value, CanonicalOf item.type value → ComesBack dateText item.type value)
    (type : DataType)
    (isList : type = .list (item :: rest) ∨
      ∃ size, type = .fixedSizeList size (item :: rest)) : ComesBack dateText type value := by
  rw [CanonicalItems] at canonical
  have fitsItems (items : List Value) : DatesFitItems (item :: rest) (.array items) ↔
      ∀ element ∈ items, DatesFit item.type element := by
    rw [DatesFitItems]
    refine ⟨fun each => each items rfl, fun each others same => ?_⟩
    cases same
    exact each
  rcases canonical with rfl | ⟨items, rfl, _, each⟩
  · rcases isList with rfl | ⟨size, rfl⟩
    · exact comesBack_null dateText _ (fun items same => nomatch same) rfl rfl
    · exact comesBack_null dateText _ (fun items same => nomatch same) rfl rfl
  · rcases isList with rfl | ⟨size, rfl⟩
    · exact comesBack_array dateText _ item.type items rfl (fun rich => rfl) (fitsItems items)
        fun element member => ih element (each element member)
    · exact comesBack_array dateText _ item.type items rfl (fun rich => rfl) (fitsItems items)
        fun element member => ih element (each element member)

private def pairStep {α β : Type} (key held : α → Except CodecError β) (pair : α × α) :
    Except CodecError (β × β) :=
  key pair.1 >>= fun first => held pair.2 >>= fun second => .ok (first, second)

private theorem mapM_pairStep {α β γ : Type} (key held : α → Except CodecError β)
    (made : β → β → γ) (pairs : List (α × α)) :
    (pairs.mapM fun pair =>
        key pair.1 >>= fun first => held pair.2 >>= fun second => .ok (made first second)) =
      (pairs.mapM (pairStep key held) >>= fun results =>
        .ok (results.map fun result => made result.1 result.2)) := by
  rw [← except_mapM_map]
  refine except_mapM_congr _ _ pairs fun pair _ => ?_
  rw [pairStep]
  cases key pair.1 with
  | error failure => rfl
  | ok first => cases held pair.2 with | error failure => rfl | ok second => rfl

private theorem map_converts (keysSorted : Bool) (children : List Field)
    (keyType valueType : DataType) (types : mapEntryTypes? children = some (keyType, valueType))
    (pairs : List (Value × Value)) :
    canonicalToRich dateText (.map keysSorted children)
        (.array (pairs.map fun pair => .array [pair.1, pair.2])) =
      (pairs.mapM (pairStep (canonicalToRich dateText keyType)
        (canonicalToRich dateText valueType)) >>= fun rich =>
          .ok (.array (rich.map fun pair => .array [pair.1, pair.2]))) := by
  obtain ⟨_, _, _, _, _, _, _, _, _, _, _, rfl⟩ :=
    mapEntryTypes?_children children keyType valueType types
  have read : canonicalPairs (.array (pairs.map fun pair => .array [pair.1, pair.2])) =
      .ok pairs := by
    rw [canonicalPairs, List.mapM_map]
    exact (except_mapM_eq _ id pairs fun _ _ => rfl).trans (by rw [List.map_id])
  rw [canonicalToRich, mapToRich, if_neg (by exact Bool.false_ne_true), read, except_ok_bind,
    mapM_pairStep (canonicalToRich dateText keyType) (canonicalToRich dateText valueType)
      (fun key held => Rich.array [key, held])]
  cases pairs.mapM (pairStep (canonicalToRich dateText keyType)
    (canonicalToRich dateText valueType)) with
  | error failure => rfl
  | ok rich => rfl

private theorem map_reverts (keysSorted : Bool) (children : List Field)
    (keyType valueType : DataType) (types : mapEntryTypes? children = some (keyType, valueType))
    (pairs : List (Rich × Rich)) :
    richToCanonical dateText (.map keysSorted children)
        (.array (pairs.map fun pair => .array [pair.1, pair.2])) =
      (pairs.mapM (pairStep (richToCanonical dateText keyType)
        (richToCanonical dateText valueType)) >>= fun cells =>
          .ok (.array (cells.map fun pair => .array [pair.1, pair.2]))) := by
  obtain ⟨_, _, _, _, _, _, _, _, _, _, _, rfl⟩ :=
    mapEntryTypes?_children children keyType valueType types
  have read : richPairs (.array (pairs.map fun pair => .array [pair.1, pair.2])) = .ok pairs := by
    rw [richPairs, List.mapM_map]
    exact (except_mapM_eq _ id pairs fun _ _ => rfl).trans (by rw [List.map_id])
  rw [richToCanonical, mapToCanonical, if_neg (by exact Bool.false_ne_true), read, except_ok_bind,
    mapM_pairStep (richToCanonical dateText keyType) (richToCanonical dateText valueType)
      (fun key held => Value.array [key, held])]
  cases pairs.mapM (pairStep (richToCanonical dateText keyType)
    (richToCanonical dateText valueType)) with
  | error failure => rfl
  | ok cells => rfl

private theorem datesFitPairs_iff (children : List Field) (keyType valueType : DataType)
    (types : mapEntryTypes? children = some (keyType, valueType))
    (pairs : List (Value × Value)) :
    DatesFitPairs children (.array (pairs.map fun pair => .array [pair.1, pair.2])) ↔
      ∀ pair ∈ pairs, DatesFit keyType pair.1 ∧ DatesFit valueType pair.2 := by
  obtain ⟨_, _, _, _, _, _, _, _, _, _, _, rfl⟩ :=
    mapEntryTypes?_children children keyType valueType types
  rw [DatesFitPairs]
  constructor
  · exact fun each pair member => each _ rfl pair.1 pair.2 (List.mem_map_of_mem member)
  · intro each items same key held member
    cases same
    obtain ⟨pair, isPair, equal⟩ := List.mem_map.mp member
    cases equal
    exact each pair isPair

private theorem comesBack_pairs (keysSorted : Bool) (children : List Field)
    (keyType valueType : DataType) (types : mapEntryTypes? children = some (keyType, valueType))
    (pairs : List (Value × Value))
    (keys : ∀ pair ∈ pairs, ComesBack dateText keyType pair.1)
    (values : ∀ pair ∈ pairs, ComesBack dateText valueType pair.2) :
    ComesBack dateText (.map keysSorted children)
      (.array (pairs.map fun pair => .array [pair.1, pair.2])) := by
  have forward := map_converts dateText keysSorted children keyType valueType types pairs
  have fits : DatesFit (.map keysSorted children)
      (.array (pairs.map fun pair => .array [pair.1, pair.2])) ↔ _ :=
    datesFitPairs_iff children keyType valueType types pairs
  refine ⟨fun rich isRich => ?_, fun rich isRich => ?_, fun inside => ?_⟩
  · rw [forward] at isRich
    obtain ⟨riches, converts, _⟩ := except_bind_ok _ _ _ isRich
    refine fits.mpr fun pair member => ?_
    obtain ⟨result, _, here⟩ := except_mapM_each _ _ _ converts pair member
    obtain ⟨key, isKey, here⟩ := except_bind_ok _ _ _ here
    obtain ⟨held, isHeld, _⟩ := except_bind_ok _ _ _ here
    exact ⟨(keys pair member).fits key isKey, (values pair member).fits held isHeld⟩
  · rw [forward] at isRich
    obtain ⟨riches, converts, isRich⟩ := except_bind_ok _ _ _ isRich
    cases isRich
    rw [map_reverts dateText keysSorted children keyType valueType types,
      except_mapM_back _ (pairStep (richToCanonical dateText keyType)
        (richToCanonical dateText valueType)) pairs riches converts
          fun pair member result here => ?_]
    · rfl
    · obtain ⟨key, isKey, here⟩ := except_bind_ok _ _ _ here
      obtain ⟨held, isHeld, here⟩ := except_bind_ok _ _ _ here
      cases here
      rw [pairStep, (keys pair member).back key isKey, except_ok_bind,
        (values pair member).back held isHeld]
      rfl
  · obtain ⟨riches, converts⟩ := except_mapM_exists
      (pairStep (canonicalToRich dateText keyType) (canonicalToRich dateText valueType)) pairs
      fun pair member => by
        obtain ⟨key, isKey⟩ := (keys pair member).accepted (fits.mp inside pair member).1
        obtain ⟨held, isHeld⟩ := (values pair member).accepted (fits.mp inside pair member).2
        exact ⟨(key, held), by rw [pairStep, isKey, except_ok_bind, isHeld, except_ok_bind]⟩
    exact ⟨_, by rw [forward, converts, except_ok_bind]⟩

private def namedStep {α β : Type} (convert : DataType → α → Except CodecError β)
    (held : Text → α) (child : Field) : Except CodecError (Text × β) :=
  convert child.type (held child.name) >>= fun result => .ok (child.name, result)

private theorem structToRich_mapM (children : List Field) (members : List (Text × Value)) :
    structToRich dateText children (.object members) =
      children.mapM (namedStep (canonicalToRich dateText) (cellMember members)) := by
  induction children with
  | nil => rfl
  | cons child rest ih =>
      obtain ⟨name, type, nullable, metadata⟩ := child
      rw [structToRich, List.mapM_cons, ih, namedStep, canonicalMember, except_ok_bind]
      dsimp only [cellMember]
      cases canonicalToRich dateText type ((lookupEntry members name).getD .null) with
      | error failure => rfl
      | ok rich => rfl

private theorem structToCanonical_mapM (children : List Field) (members : List (Text × Rich)) :
    structToCanonical dateText children (.object members) =
      children.mapM (namedStep (richToCanonical dateText)
        fun name => (lookupEntry members name).getD .null) := by
  induction children with
  | nil => rfl
  | cons child rest ih =>
      obtain ⟨name, type, nullable, metadata⟩ := child
      rw [structToCanonical, List.mapM_cons, ih, namedStep, richMember, except_ok_bind]
      dsimp only
      cases richToCanonical dateText type ((lookupEntry members name).getD .null) with
      | error failure => rfl
      | ok cell => rfl

/-- What a named step gives an object, for each of its children. -/
private theorem namedStep_found {α β : Type} (convert : DataType → α → Except CodecError β)
    (held : Text → α) (children : List Field)
    (alike : ∀ left ∈ children, ∀ right ∈ children, left.name = right.name →
      left.type = right.type)
    (members : List (Text × β)) (converts : children.mapM (namedStep convert held) = .ok members)
    (child : Field) (member : child ∈ children) :
    ∃ result, lookupEntry (objectOf members) child.name = some result ∧
      convert child.type (held child.name) = .ok result := by
  obtain ⟨entry, isEntry, here⟩ := except_mapM_each _ _ _ converts child member
  obtain ⟨made, _, here⟩ := except_bind_ok _ _ _ here
  cases here
  obtain ⟨result, isResult, found⟩ :=
    lookup_objectOf members child.name (List.mem_map_of_mem isEntry)
  obtain ⟨other, isOther, there⟩ := except_mapM_sources _ _ _ converts _ isResult
  obtain ⟨value, isValue, there⟩ := except_bind_ok _ _ _ there
  obtain ⟨sameName, rfl⟩ := Prod.mk.inj (Except.ok.inj there)
  refine ⟨value, found, ?_⟩
  rw [alike child member other isOther sameName.symm, ← sameName]
  exact isValue

private theorem comesBack_object (children : List Field)
    (alike : ∀ left ∈ children, ∀ right ∈ children, left.name = right.name →
      left.type = right.type)
    (members : List (Text × Value)) (canonical : CanonicalMembers children members)
    (each : ∀ child ∈ children,
      ComesBack dateText child.type (cellMember (objectOf members) child.name)) :
    ComesBack dateText (.struct children) (.object (objectOf members)) := by
  have forward : canonicalToRich dateText (.struct children) (.object (objectOf members)) =
      (children.mapM (namedStep (canonicalToRich dateText) (cellMember (objectOf members))) >>=
        fun rich => .ok (.object (objectOf rich))) := by
    rw [← structToRich_mapM]
    rfl
  have fits : DatesFit (.struct children) (.object (objectOf members)) ↔ _ :=
    datesFitMembers_iff children (objectOf members)
  refine ⟨fun rich isRich => ?_, fun rich isRich => ?_, fun inside => ?_⟩
  · rw [forward] at isRich
    obtain ⟨riches, converts, _⟩ := except_bind_ok _ _ _ isRich
    refine fits.mpr fun child member => ?_
    obtain ⟨result, _, here⟩ := namedStep_found _ _ children alike riches converts child member
    exact (each child member).fits result here
  · rw [forward] at isRich
    obtain ⟨riches, converts, isRich⟩ := except_bind_ok _ _ _ isRich
    cases isRich
    have reverts : structToCanonical dateText children (.object (objectOf riches)) =
        .ok (children.map fun child => (child.name, cellMember (objectOf members) child.name)) := by
      rw [structToCanonical_mapM]
      refine except_mapM_eq _ _ children fun child member => ?_
      obtain ⟨result, found, here⟩ :=
        namedStep_found _ _ children alike riches converts child member
      rw [namedStep, found, Option.getD_some, (each child member).back result here]
      rfl
    rw [richToCanonical, if_neg (by exact Bool.false_ne_true), reverts, except_ok_bind]
    exact congrArg (fun entries => Except.ok (Value.object entries))
      (canonical_struct children alike members canonical).2
  · obtain ⟨riches, converts⟩ := except_mapM_exists
      (namedStep (canonicalToRich dateText) (cellMember (objectOf members))) children
      fun child member => by
        obtain ⟨rich, isRich⟩ := (each child member).accepted (fits.mp inside child member)
        exact ⟨(child.name, rich), by rw [namedStep, isRich, except_ok_bind]⟩
    exact ⟨_, by rw [forward, converts, except_ok_bind]⟩

private theorem datesFitMembers_null (children : List Field) : DatesFitMembers children .null := by
  induction children with
  | nil => trivial
  | cons child rest ih =>
      obtain ⟨name, type, nullable, metadata⟩ := child
      exact ⟨fun _ => nofun, ih⟩

/-- A canonical value is accepted exactly where its dates fit, and then comes back. -/
theorem comesBack (type : DataType) (alike : SameNamedAlike type) (value : Value)
    (canonical : CanonicalOf type value) : ComesBack dateText type value := by
  induction type using nestedInduction generalizing value with
  | list item rest ih =>
      rw [SameNamedAlike] at alike
      rw [CanonicalOf] at canonical
      exact comesBack_items dateText item rest none value canonical
        (ih (allAlike_of_mem _ alike item List.mem_cons_self)) _ (.inl rfl)
  | emptyList => exact canonical.elim
  | fixedSizeList listSize item rest ih =>
      rw [SameNamedAlike] at alike
      rw [CanonicalOf] at canonical
      exact comesBack_items dateText item rest (some listSize) value canonical
        (ih (allAlike_of_mem _ alike item List.mem_cons_self)) _ (.inr ⟨listSize, rfl⟩)
  | emptyFixedSizeList listSize => exact canonical.elim
  | map keysSorted children keyType valueType types keyIH valueIH =>
      have mapped := types
      obtain ⟨_, _, _, _, _, _, _, _, _, _, _, rfl⟩ :=
        mapEntryTypes?_children children keyType valueType types
      rw [SameNamedAlike, AllAlike, SameNamedAlike, AllAlike, AllAlike] at alike
      rw [CanonicalOf, CanonicalPairs] at canonical
      rcases canonical with rfl | ⟨pairs, rfl, each⟩
      · exact comesBack_null dateText _ (fun items same => by cases same) rfl rfl
      · exact comesBack_pairs dateText keysSorted _ keyType valueType mapped pairs
          (fun pair member => keyIH alike.1.2.1 pair.1 (each pair member).1)
          fun pair member => valueIH alike.1.2.2.1 pair.2 (each pair member).2
  | otherMap keysSorted children noTypes =>
      rw [CanonicalOf] at canonical
      unfold CanonicalPairs at canonical
      split at canonical
      · cases noTypes
      · exact canonical.elim
  | struct children ih =>
      rw [SameNamedAlike] at alike
      rw [CanonicalOf] at canonical
      rcases canonical with rfl | ⟨members, isMembers, rfl⟩
      · exact comesBack_null dateText _ (datesFitMembers_null children) rfl rfl
      · have held := (canonical_struct children alike.1 members isMembers).1
        exact comesBack_object dateText children alike.1 members isMembers fun child member =>
          ih child member (allAlike_of_mem children alike.2 child member) _ (held child member)
  | union mode typeIds children ih =>
      have kept := scalar_union dateText mode typeIds children value
      have converts : canonicalToRich dateText (.union mode typeIds children) value =
          .ok (Rich.ofValue value) := by
        simp only [canonicalToRich, scalarToRich, kept, except_ok_bind]
        cases value <;> rfl
      refine ⟨fun _ _ => trivial, fun rich isRich => ?_, fun _ => ⟨_, converts⟩⟩
      cases converts.symm.trans isRich
      simp only [richToCanonical, kept]
      cases value <;> rfl
  | dictionary id dictionary indices ordered ih =>
      have inner := ih alike value canonical
      exact ⟨inner.fits, inner.back, inner.accepted⟩
  | leaf type isLeaf =>
      rcases canonical_leaf type isLeaf value canonical with rfl | held
      · refine comesBack_null dateText type ?_ ?_ ?_
        · cases type with
          | date unit =>
              cases unit with
              | day => exact fun _ _ same => by cases same
              | millisecond => exact fun _ same => by cases same
          | _ =>
              first
              | exact absurd isLeaf Bool.false_ne_true
              | trivial
        · exact canonicalToRich_leaf dateText type isLeaf .null
        · exact richToCanonical_leaf dateText type isLeaf .null
      · exact comesBack_leaf dateText type isLeaf value held.2 held.1

end

/-! ## The raw view -/

section

variable (scalar : DataType → Value → Except CodecError Value)

private theorem convertMembers_eq (children : List Field) (members : List (Text × Value))
    (each : ∀ child ∈ children, convertRaw scalar child.type (cellMember members child.name) =
      .ok (cellMember members child.name)) :
    convertMembers scalar children (.object members) =
      .ok (children.map fun child => (child.name, cellMember members child.name)) := by
  induction children with
  | nil => rfl
  | cons child rest ih =>
      have first := each child List.mem_cons_self
      obtain ⟨name, type, nullable, metadata⟩ := child
      dsimp only [cellMember] at first
      rw [convertMembers, canonicalMember, except_ok_bind, first, except_ok_bind,
        ih fun other member => each other (List.mem_cons_of_mem _ member)]
      rfl

private theorem mapM_same {α : Type} (step : α → Except CodecError α) (items : List α)
    (each : ∀ item ∈ items, step item = .ok item) : items.mapM step = .ok items :=
  (except_mapM_eq step id items each).trans (by rw [List.map_id])

private theorem convertItems_same (item : Field) (rest : List Field) (listSize : Option Nat)
    (value : Value) (canonical : CanonicalItems (item :: rest) listSize value)
    (ih : ∀ value, CanonicalOf item.type value → convertRaw scalar item.type value = .ok value) :
    convertItems scalar (item :: rest) value = .ok value := by
  rw [CanonicalItems] at canonical
  obtain ⟨name, type, nullable, metadata⟩ := item
  rcases canonical with rfl | ⟨items, rfl, _, each⟩
  · rfl
  · rw [convertItems, if_neg (by exact Bool.false_ne_true), canonicalElements, except_ok_bind,
      mapM_same (convertRaw scalar type) items fun element member => ih element (each element member)]
    rfl

/-- A conversion that keeps the values of the types without children keeps all. -/
theorem convertRaw_same
    (leaves : ∀ type value, CanonicalLeaf type value → scalar type value = .ok value)
    (unions : ∀ mode typeIds children value,
      scalar (.union mode typeIds children) value = .ok value)
    (type : DataType) (alike : SameNamedAlike type) (value : Value)
    (canonical : CanonicalOf type value) : convertRaw scalar type value = .ok value := by
  induction type using nestedInduction generalizing value with
  | list item rest ih =>
      rw [SameNamedAlike] at alike
      rw [CanonicalOf] at canonical
      exact convertItems_same scalar item rest none value canonical
        (ih (allAlike_of_mem _ alike item List.mem_cons_self))
  | emptyList => exact canonical.elim
  | fixedSizeList listSize item rest ih =>
      rw [SameNamedAlike] at alike
      rw [CanonicalOf] at canonical
      exact convertItems_same scalar item rest (some listSize) value canonical
        (ih (allAlike_of_mem _ alike item List.mem_cons_self))
  | emptyFixedSizeList listSize => exact canonical.elim
  | map keysSorted children keyType valueType types keyIH valueIH =>
      obtain ⟨_, _, _, _, _, _, _, _, _, _, _, rfl⟩ :=
        mapEntryTypes?_children children keyType valueType types
      rw [SameNamedAlike, AllAlike, SameNamedAlike, AllAlike, AllAlike] at alike
      rw [CanonicalOf, CanonicalPairs] at canonical
      rcases canonical with rfl | ⟨pairs, rfl, each⟩
      · rfl
      · have read : canonicalPairs (.array (pairs.map fun pair => .array [pair.1, pair.2])) =
            .ok pairs := by
          rw [canonicalPairs, List.mapM_map]
          exact mapM_same _ pairs fun _ _ => rfl
        rw [convertRaw, convertPairs, if_neg (by exact Bool.false_ne_true), read, except_ok_bind,
          except_mapM_eq _ (fun pair => Value.array [pair.1, pair.2]) pairs fun pair member => by
            rw [keyIH alike.1.2.1 pair.1 (each pair member).1, except_ok_bind,
              valueIH alike.1.2.2.1 pair.2 (each pair member).2]
            rfl]
        rfl
  | otherMap keysSorted children noTypes =>
      rw [CanonicalOf] at canonical
      unfold CanonicalPairs at canonical
      split at canonical
      · cases noTypes
      · exact canonical.elim
  | struct children ih =>
      rw [SameNamedAlike] at alike
      rw [CanonicalOf] at canonical
      rcases canonical with rfl | ⟨members, isMembers, rfl⟩
      · rfl
      · have held := canonical_struct children alike.1 members isMembers
        rw [convertRaw, if_neg (by exact Bool.false_ne_true),
          convertMembers_eq scalar children (objectOf members) fun child member =>
            ih child member (allAlike_of_mem children alike.2 child member) _ (held.1 child member),
          except_ok_bind]
        exact congrArg (fun entries => Except.ok (Value.object entries)) held.2
  | union mode typeIds children ih =>
      simp only [convertRaw, unions]
      cases value <;> rfl
  | dictionary id dictionary indices ordered ih => exact ih alike value canonical
  | leaf type isLeaf =>
      have converts : convertRaw scalar type value =
          if isCanonicalNull value then .ok .null else scalar type value := by
        cases type with
        | _ =>
            first
            | exact absurd isLeaf Bool.false_ne_true
            | simp [convertRaw]
      rcases canonical_leaf type isLeaf value canonical with rfl | held
      · exact converts
      · rw [converts, if_neg (by simp [held.1]), leaves type value held.2]

end

section

variable (dateText : Number → Text)

private theorem checkDay_leaf (notInteger notDay : String) (days : Int)
    (inside : InSigned 32 days) :
    checkDay notInteger notDay (.number (Number.ofInt days)) =
      .ok (.number (Number.ofInt days)) := by
  rw [checkDay, integerOf_ofInt days (inSigned_small days inside), except_ok_bind]

private theorem scalarFromRaw_leaf (type : DataType) (value : Value)
    (canonical : CanonicalLeaf type value) : scalarFromRaw dateText type value = .ok value := by
  cases type with
  | date unit =>
      cases unit with
      | day =>
          obtain ⟨days, rfl, inside⟩ := canonical
          rw [scalarFromRaw]
          exact checkDay_leaf _ _ days inside
      | millisecond =>
          obtain ⟨ms, rfl⟩ := canonical
          rfl
  | _ => exact scalarToCanonical_leaf dateText _ rfl value canonical

private theorem scalarToRaw_leaf (type : DataType) (value : Value)
    (canonical : CanonicalLeaf type value) : scalarToRaw dateText type value = .ok value := by
  cases type with
  | utf8 =>
      obtain ⟨held, rfl⟩ := canonical
      rfl
  | largeUtf8 =>
      obtain ⟨held, rfl⟩ := canonical
      rfl
  | date unit =>
      cases unit with
      | day =>
          obtain ⟨days, rfl, inside⟩ := canonical
          rw [scalarToRaw]
          exact checkDay_leaf _ _ days inside
      | millisecond =>
          obtain ⟨ms, rfl⟩ := canonical
          rfl
  | time unit bitWidth =>
      have back := scalarToCanonical_leaf dateText (.time unit bitWidth) rfl value canonical
      by_cases wide : bitWidth = 64
      · rw [scalarToRaw, if_pos wide, back]
      · obtain ⟨held, rfl, _⟩ := canonical
        rw [scalarToRaw, if_neg wide, if_neg wide, time32ToRaw]
  | _ => exact scalarToCanonical_leaf dateText _ rfl value canonical

/-- Where the children of a struct that share a name share a type, a canonical value comes back from
its author-facing form exactly when every date in it is one that a `Date` holds, has no such form
otherwise, and always comes back from its raw form. -/
theorem conversions_inverse_iff (type : DataType) (alike : SameNamedAlike type) (value : Value)
    (canonical : CanonicalOf type value) :
    ((canonicalToRich dateText type value >>= richToCanonical dateText type) = .ok value ↔
        DatesFit type value) ∧
      (¬DatesFit type value → ∀ rich, canonicalToRich dateText type value ≠ .ok rich) ∧
      (canonicalToRaw dateText type value >>= rawToCanonical dateText type) = .ok value := by
  have kept := comesBack dateText type alike value canonical
  refine ⟨⟨fun comes => ?_, fun fits => ?_⟩, fun outside rich isRich => ?_, ?_⟩
  · obtain ⟨rich, isRich, _⟩ := except_bind_ok _ _ _ comes
    exact kept.fits rich isRich
  · obtain ⟨rich, isRich⟩ := kept.accepted fits
    rw [isRich, except_ok_bind, kept.back rich isRich]
  · exact outside (kept.fits rich isRich)
  · have toRaw : canonicalToRaw dateText type value = .ok value :=
      convertRaw_same _ (scalarToRaw_leaf dateText) (scalar_union dateText) type alike value
        canonical
    have fromRaw : rawToCanonical dateText type value = .ok value :=
      convertRaw_same _ (scalarFromRaw_leaf dateText) (scalar_union dateText) type alike value
        canonical
    rw [toRaw, except_ok_bind, fromRaw]

/-- The days of a list in a struct come back from both forms. -/
theorem conversions_inverse_days :
    let type := DataType.struct [⟨text "days", .list [⟨text "item", .date .day, true, .empty⟩],
      true, .empty⟩]
    let value := Value.object [(text "days", .array [.number (Number.ofInt 19000), .null])]
    (canonicalToRich (fun _ => []) type value >>= richToCanonical (fun _ => []) type) = .ok value ∧
      (canonicalToRaw (fun _ => []) type value >>= rawToCanonical (fun _ => []) type) =
        .ok value := by
  intro type value
  have alike : SameNamedAlike type := by
    simp [type, SameNamedAlike, AllAlike]
  have day : CanonicalOf (.date .day) (.number (Number.ofInt 19000)) :=
    .inr ⟨19000, rfl, by decide⟩
  have days : CanonicalOf (.list [⟨text "item", .date .day, true, .empty⟩])
      (.array [.number (Number.ofInt 19000), .null]) :=
    .inr ⟨_, rfl, (by simp), List.forall_mem_cons.mpr ⟨day, List.forall_mem_singleton.mpr (.inl rfl)⟩⟩
  have canonical : CanonicalOf type value :=
    .inr ⟨_, ⟨_, [], rfl, days, rfl⟩, rfl⟩
  have inverse := conversions_inverse_iff (fun _ => []) type alike value canonical
  refine ⟨inverse.1.mpr ((datesFitMembers_iff _ _).mpr (List.forall_mem_singleton.mpr ?_)),
    inverse.2.2⟩
  intro items same
  cases same
  refine List.forall_mem_cons.mpr ⟨fun number held isNumber isDay => ?_,
    List.forall_mem_singleton.mpr fun _ _ => (by simp)⟩
  cases isNumber
  cases (toInt?_ofInt_safe 19000 (by decide)).1.symm.trans isDay
  decide

/-- The greatest day of a column, which stands for infinity, is no `Date`. -/
theorem infinite_day_refused :
    CanonicalOf (.date .day) (.number (Number.ofInt 2147483647)) ∧
      (canonicalToRich (fun _ => []) (.date .day) (.number (Number.ofInt 2147483647)) >>=
        richToCanonical (fun _ => []) (.date .day)) ≠ .ok (.number (Number.ofInt 2147483647)) := by
  have inside : InSigned 32 2147483647 := by decide
  refine ⟨.inr ⟨2147483647, rfl, inside⟩, fun comes => ?_⟩
  obtain ⟨rich, isRich, _⟩ := except_bind_ok _ _ _ comes
  have fits := (comesBack_day (fun _ => []) 2147483647 inside).fits rich isRich
  have bound := fits _ 2147483647 rfl (toInt?_ofInt_safe 2147483647 (by decide)).1
  exact absurd bound (by decide)

end

end VgiWorker.Arrow
