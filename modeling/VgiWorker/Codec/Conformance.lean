import VgiWorker.Codec.CollectionProperties
import VgiWorker.Codec.Conform
import VgiWorker.Js.NumberArithmetic

/-!
# What conforming establishes

The wire rules as a judgement on records, independent of how they are made to
hold: which slots are filled, and that filling a record is settled in one pass.
-/

set_option autoImplicit false

namespace VgiWorker.Codec

open Js Arrow
open Protocol (Row rowMember optionalItemFields)

/-! ## The wire rules -/

/-- The types with a value that stands for an item left null. -/
def hasZero : DataType → Bool
  | .dictionary _ dictionary _ _ => hasZero dictionary
  | .utf8 | .largeUtf8 | .binary | .largeBinary | .bool | .int _ _ | .float _ | .list _ | .map _ _
  | .struct _ => true
  | _ => false

/-- A column or a struct child that need not be filled: a null list or map is in a nullable one,
and a nullable one is not left out. -/
def SlotSettled (field : Field) : Option Rich → Prop
  | none => field.nullable = false ∧ isContainer field.type = false
  | some .null => field.nullable = true ∨ isContainer field.type = false
  | some _ => True

/-- The wire rules inside a value that is present, in a slot of the given name. -/
inductive Conforming : DataType → Text → Rich → Prop
  | list (item : Field) (rest : List Field) (name : Text) (items : List Rich)
      (filled : ∀ element ∈ items, isRichNull element = true →
        name ∈ optionalItemFields ∨ hasZero item.type = false)
      (each : ∀ element ∈ items, isRichNull element = false → Conforming item.type name element) :
      Conforming (.list (item :: rest)) name (.array items)
  | emptyList (name : Text) (value : Rich) : Conforming (.list []) name value
  | map (keysSorted : Bool) (children : List Field) (valueType : DataType) (name : Text)
      (value : Rich) (isValue : mapValueType? children = some valueType)
      (filled : ∀ pair ∈ mapPairs value, isRichNull pair.2 = true → hasZero valueType = false)
      (each : ∀ pair ∈ mapPairs value, isRichNull pair.2 = false →
        Conforming valueType name pair.2) :
      Conforming (.map keysSorted children) name value
  | otherMap (keysSorted : Bool) (children : List Field) (name : Text) (value : Rich)
      (noValue : mapValueType? children = none) : Conforming (.map keysSorted children) name value
  | struct (children : List Field) (name : Text) (value : Rich)
      (settled : ∀ child ∈ children, SlotSettled child (lookupEntry (ownEntries value) child.name))
      (each : ∀ child ∈ children, ∀ held, lookupEntry (ownEntries value) child.name = some held →
        isRichNull held = false → Conforming child.type child.name held) :
      Conforming (.struct children) name value
  | plainStruct (children : List Field) (name : Text) (value : Rich)
      (plain : childHasContainer children = false) : Conforming (.struct children) name value
  | other (type : DataType) (name : Text) (value : Rich) (noContainer : isContainer type = false)
      (noStruct : type.isStruct = false) : Conforming type name value

/-- The wire rules on a record. -/
structure RecordConforming (schema : Schema) (record : Row) : Prop where
  settled : ∀ field ∈ schema.fields, SlotSettled field (lookupEntry record field.name)
  each : ∀ field ∈ schema.fields, ∀ held, lookupEntry record field.name = some held →
    isRichNull held = false → Conforming field.type field.name held

mutual

/-- The names of a struct's children are distinct, at every depth. -/
def WellNamed : DataType → Prop
  | .list children | .map _ children => AllWellNamed children
  | .struct children => (children.map FieldOf.name).Nodup ∧ AllWellNamed children
  | _ => True

def AllWellNamed : List (FieldOf DataType) → Prop
  | [] => True
  | ⟨_, type, _, _⟩ :: rest => WellNamed type ∧ AllWellNamed rest

end

theorem wellNamed_of_mem (fields : List Field) (all : AllWellNamed fields) (field : Field)
    (member : field ∈ fields) : WellNamed field.type := by
  induction fields with
  | nil => cases member
  | cons first rest ih =>
      obtain ⟨name, type, nullable, metadata⟩ := first
      rw [AllWellNamed] at all
      cases member with
      | head => exact all.1
      | tail _ member => exact ih all.2 member

theorem wellNamed_mapValue (children : List Field) (all : AllWellNamed children)
    (valueType : DataType) (isValue : mapValueType? children = some valueType) :
    WellNamed valueType := by
  unfold mapValueType? at isValue
  split at isValue
  · cases isValue
    rw [AllWellNamed, WellNamed] at all
    exact wellNamed_of_mem _ all.1.2 ⟨_, valueType, _, _⟩ (List.mem_cons_of_mem _ List.mem_cons_self)
  · cases isValue

/-! ## Zero values -/

theorem isRichNull_zeroValue (type : DataType) : isRichNull (zeroValue type) = !hasZero type :=
  match type with
  | .dictionary _ dictionary _ _ => isRichNull_zeroValue dictionary
  | .int bitWidth _ => by
      rw [zeroValue]
      split
      · rfl
      · rfl
  | .utf8 | .largeUtf8 | .binary | .largeBinary | .bool | .float _ | .list _ | .map _ _
  | .struct _ | .null | .decimal _ _ _ | .date _ | .time _ _ | .timestamp _ _ | .interval _
  | .union _ _ _ | .fixedSizeBinary _ | .fixedSizeList _ _ | .duration _ => rfl

/-- What a struct child holds that was never set. -/
theorem lookupEntry_zeroMembers (children : List Field)
    (nodup : (children.map FieldOf.name).Nodup) (child : Field) (member : child ∈ children) :
    lookupEntry (setMembers [] (zeroMembers children)) child.name =
      some (if child.nullable then .null else emptyContainer child.type) := by
  rw [lookupEntry_setMembers, lookupEntry, Option.or_none]
  induction children with
  | nil => cases member
  | cons first rest ih =>
      obtain ⟨name, type, nullable, metadata⟩ := first
      obtain ⟨fresh, nodup⟩ := List.nodup_cons.mp nodup
      rw [zeroMembers, OrderedMap.lastOf_cons]
      cases member with
      | head =>
          have absent : OrderedMap.lastOf (zeroMembers rest) name = none := by
            have names (fields : List Field) :
                (zeroMembers fields).map Prod.fst = fields.map FieldOf.name := by
              induction fields with
              | nil => rfl
              | cons field others ih =>
                  obtain ⟨_, _, _, _⟩ := field
                  rw [zeroMembers, List.map_cons, List.map_cons, ih]
            rw [OrderedMap.lastOf, ← Option.not_isSome_iff_eq_none, lookupEntry_isSome,
              List.map_reverse, List.mem_reverse, names]
            exact fresh
          rw [absent]
          simp
      | tail _ member =>
          rw [ih nodup member]
          rfl

theorem emptyArray_conforming (type : DataType) (name : Text)
    (container : isContainer type = true) : Conforming type name (.array []) := by
  cases type with
  | list children =>
      cases children with
      | nil => exact .emptyList name _
      | cons item rest => exact .list item rest name [] nofun nofun
  | map keysSorted children =>
      cases isValue : mapValueType? children with
      | none => exact .otherMap keysSorted children name _ isValue
      | some valueType => exact .map keysSorted children valueType name _ isValue nofun nofun
  | _ => cases container

/-- A zero value keeps the wire rules. -/
theorem zeroValue_conforming (type : DataType) (named : WellNamed type) (name : Text)
    (present : hasZero type = true) : Conforming type name (zeroValue type) := by
  cases type with
  | list children => exact emptyArray_conforming (.list children) name rfl
  | map keysSorted children => exact emptyArray_conforming (.map keysSorted children) name rfl
  | struct children =>
      rw [WellNamed] at named
      rw [zeroValue]
      refine .struct children name _ (fun child member => ?_) fun child member held isHeld notNull => ?_
      · rw [ownEntries, lookupEntry_zeroMembers children named.1 child member]
        cases nullable : child.nullable with
        | true => exact .inl nullable
        | false =>
            cases container : isContainer child.type with
            | true =>
                simp only [emptyContainer, container, if_true, if_false, Bool.false_eq_true]
                trivial
            | false =>
                simp only [emptyContainer, container, if_false, Bool.false_eq_true]
                exact .inr container
      · rw [ownEntries, lookupEntry_zeroMembers children named.1 child member] at isHeld
        cases isHeld
        split at notNull
        · cases notNull
        · rename_i required
          rw [if_neg required]
          unfold emptyContainer at notNull ⊢
          split at notNull
          · rename_i container
            rw [if_pos container]
            exact emptyArray_conforming child.type child.name container
          · cases notNull
  | _ => exact .other _ name _ rfl rfl

/-! ## One pass -/

theorem conformPresent_map (keysSorted : Bool) (children : List Field)
    (valueType : DataType) (isValue : mapValueType? children = some valueType) (value : Rich)
    (name : Text) :
    conformPresent (.map keysSorted children) value name =
      let next := conformElement valueType false fun held => conformPresent valueType held name
      if (mapPairs value).all fun pair => (next pair.2).isNone then none
      else some (.array ((replaceValues (mapPairs value) next).map pairArray)) := by
  unfold mapValueType? at isValue
  split at isValue
  · cases isValue
    rw [conformPresent, conformPairs]
  · cases isValue

theorem conformPresent_otherMap (keysSorted : Bool) (children : List Field)
    (noValue : mapValueType? children = none) (value : Rich) (name : Text) :
    conformPresent (.map keysSorted children) value name = itself value := by
  unfold mapValueType? at noValue
  split at noValue
  · cases noValue
  · rename_i unlike
    rw [conformPresent]
    unfold conformPairs
    split
    · exact absurd rfl (unlike _ _ _ _ _ _ _ _ _ _)
    · rfl

theorem itself_getD (value : Rich) : (itself value).getD value = value := by
  unfold itself
  split
  · rfl
  · rfl

private theorem itself_again (value : Rich) :
    (itself ((itself value).getD value)).getD ((itself value).getD value) =
      (itself value).getD value := by
  rw [itself_getD, itself_getD]

/-- What replaces a value that is present is present. -/
theorem conformPresent_present (type : DataType) (value : Rich) (name : Text)
    (present : isRichNull value = false) :
    isRichNull ((conformPresent type value name).getD value) = false := by
  have kept : isRichNull ((itself value).getD value) = false := by rw [itself_getD, present]
  cases type with
  | list children =>
      rw [conformPresent]
      cases children with
      | nil => exact kept
      | cons item rest =>
          rw [conformItems]
          split
          · exact present
          · rfl
  | map keysSorted children =>
      cases isValue : mapValueType? children with
      | none =>
          rw [conformPresent_otherMap keysSorted children isValue]
          exact kept
      | some valueType =>
          rw [conformPresent_map keysSorted children valueType isValue]
          dsimp only
          split
          · exact present
          · rfl
  | struct children =>
      rw [conformPresent]
      split
      · split
        · exact kept
        · rfl
      · exact kept
  | _ => exact kept

section

variable (type : DataType) (name : Text) (named : WellNamed type)
  (ih : ∀ value, isRichNull value = false →
    Conforming type name ((conformPresent type value name).getD value))

include named ih

/-- A list item or a map value, once replaced, is filled and keeps the rules. -/
private theorem element_conforming (mayBeNull : Bool) (value : Rich) :
    let new := (conformElement type mayBeNull (fun held => conformPresent type held name)
      value).getD value
    (isRichNull new = true → mayBeNull = true ∨ hasZero type = false) ∧
      (isRichNull new = false → Conforming type name new) := by
  dsimp only
  rw [conformElement]
  cases isNull : isRichNull value with
  | true =>
      rw [if_pos rfl, isRichNull_zeroValue]
      split
      · rename_i left
        rw [Option.getD_none, isNull]
        refine ⟨fun _ => ?_, nofun⟩
        simpa using left
      · rename_i filled
        rw [Bool.or_eq_true, not_or, Bool.not_eq_true', Bool.not_eq_false] at filled
        rw [Option.getD_some, isRichNull_zeroValue, filled.2]
        exact ⟨nofun, fun _ => zeroValue_conforming type named name filled.2⟩
  | false =>
      rw [if_neg Bool.false_ne_true]
      refine ⟨fun gone => ?_, fun _ => ih value isNull⟩
      rw [conformPresent_present type value name isNull] at gone
      cases gone

end

theorem members_settled (children : List Field) (members : List (Text × Rich))
    (nodup : (children.map FieldOf.name).Nodup) (child : Field) (member : child ∈ children) :
    lookupEntry (setMembers members (conformMembers children members)) child.name =
      (conformValue child.type (lookupEntry members child.name) child.nullable child.name).or
        (lookupEntry members child.name) := by
  rw [lookupEntry_setMembers, lastOf_conformMembers children nodup, find?_of_mem nodup member,
    Option.bind_some]

private theorem slotSettled_present (field : Field) (value : Rich)
    (present : isRichNull value = false) : SlotSettled field (some value) := by
  cases value with
  | null => cases present
  | _ => trivial

theorem slot_settled (field : Field) (value : Option Rich) :
    SlotSettled field ((conformValue field.type value field.nullable field.name).or value) := by
  unfold conformValue conformSlot
  split
  · cases nullable : field.nullable with
    | true => exact .inl nullable
    | false =>
        cases container : isContainer field.type with
        | true => trivial
        | false => exact ⟨nullable, container⟩
  · cases nullable : field.nullable with
    | true => exact .inl nullable
    | false =>
        cases container : isContainer field.type with
        | true => trivial
        | false => exact .inr container
  · rename_i held notNull
    have present : isRichNull held = false :=
      Bool.eq_false_iff.mpr fun isNull => notNull ((isRichNull_iff held).mp isNull)
    have kept := conformPresent_present field.type held field.name present
    dsimp only
    cases replaced : conformPresent field.type held field.name with
    | none => exact slotSettled_present field held present
    | some next =>
        rw [replaced] at kept
        exact slotSettled_present field next kept

/-- What a slot holds after a pass, where it holds something: a default or the value that was
there, conformed. -/
theorem slot_cases (field : Field) (value : Option Rich) (held : Rich)
    (isHeld : (conformValue field.type value field.nullable field.name).or value = some held)
    (present : isRichNull held = false) :
    (isContainer field.type = true ∧ held = .array []) ∨
      ∃ old, value = some old ∧ isRichNull old = false ∧
        held = (conformPresent field.type old field.name).getD old := by
  unfold conformValue conformSlot at isHeld
  split at isHeld
  · split at isHeld
    · cases isHeld
      cases present
    · split at isHeld
      · rename_i container
        cases isHeld
        exact .inl ⟨container, rfl⟩
      · cases isHeld
  · split at isHeld
    · rename_i container
      rw [Bool.and_eq_true] at container
      cases isHeld
      exact .inl ⟨container.2, rfl⟩
    · cases isHeld
      cases present
  · rename_i old notNull
    dsimp only at isHeld
    refine .inr ⟨old, rfl, ?_, ?_⟩
    · exact Bool.eq_false_iff.mpr fun isNull => notNull ((isRichNull_iff old).mp isNull)
    · cases replaced : conformPresent field.type old field.name with
      | none =>
          rw [replaced] at isHeld
          cases isHeld
          rfl
      | some next =>
          rw [replaced] at isHeld
          cases isHeld
          rfl

private theorem pairOf_pairArray (pair : Rich × Rich) : pairOf (pairArray pair) = pair := rfl

theorem mapPairs_pairArrays (pairs : List (Rich × Rich)) :
    mapPairs (.array (pairs.map pairArray)) = pairs := by
  rw [mapPairs, List.map_map]
  exact List.map_id'' pairOf_pairArray pairs

/-- A value, once conformed, keeps the wire rules. -/
theorem conformPresent_conforming (type : DataType) (named : WellNamed type) (name : Text)
    (value : Rich) (present : isRichNull value = false) :
    Conforming type name ((conformPresent type value name).getD value) := by
  induction type using containerInduction generalizing name value with
  | list item rest ih =>
      rw [WellNamed] at named
      have itemNamed := wellNamed_of_mem (item :: rest) named item List.mem_cons_self
      have each := element_conforming item.type name itemNamed (fun value => ih itemNamed name value)
        (decide (name ∈ optionalItemFields))
      rw [conformPresent]
      unfold conformItems
      dsimp only
      split
      · rename_i unchanged
        rw [Bool.and_eq_true, List.all_eq_true] at unchanged
        cases value with
        | array items =>
            have same (element : Rich) (member : element ∈ items) :=
              Option.isNone_iff_eq_none.mp (unchanged.2 element member)
            refine .list item rest name items (fun element member isNull => ?_)
              fun element member notNull => ?_
            · have kept := (each element).1
              rw [same element member] at kept
              exact (kept isNull).imp_left of_decide_eq_true
            · have kept := (each element).2
              rw [same element member] at kept
              exact kept notNull
        | _ => cases unchanged.1
      · refine .list item rest name _ (fun element member isNull => ?_)
          fun element member notNull => ?_
        · obtain ⟨old, _, rfl⟩ := List.mem_map.mp member
          exact ((each old).1 isNull).imp_left of_decide_eq_true
        · obtain ⟨old, _, rfl⟩ := List.mem_map.mp member
          exact (each old).2 notNull
  | emptyList => exact .emptyList name _
  | map keysSorted children valueType isValue ih =>
      rw [WellNamed] at named
      have valueNamed := wellNamed_mapValue children named valueType isValue
      have each := element_conforming valueType name valueNamed
        (fun value => ih valueNamed name value) false
      rw [conformPresent_map keysSorted children valueType isValue]
      dsimp only
      split
      · rename_i unchanged
        rw [List.all_eq_true] at unchanged
        have same (pair : Rich × Rich) (member : pair ∈ mapPairs value) :=
          Option.isNone_iff_eq_none.mp (unchanged pair member)
        refine .map keysSorted children valueType name _ isValue (fun pair member isNull => ?_)
          fun pair member notNull => ?_
        · have kept := (each pair.2).1
          rw [same pair member] at kept
          exact (kept isNull).resolve_left Bool.false_ne_true
        · have kept := (each pair.2).2
          rw [same pair member] at kept
          exact kept notNull
      · rw [Option.getD_some]
        refine .map keysSorted children valueType name _ isValue (fun pair member isNull => ?_)
          fun pair member notNull => ?_
        · rw [mapPairs_pairArrays] at member
          obtain ⟨old, _, rfl⟩ := List.mem_map.mp member
          exact ((each old.2).1 isNull).resolve_left Bool.false_ne_true
        · rw [mapPairs_pairArrays] at member
          obtain ⟨old, _, rfl⟩ := List.mem_map.mp member
          exact (each old.2).2 notNull
  | otherMap keysSorted children noValue => exact .otherMap keysSorted children name _ noValue
  | struct children ih =>
      rw [WellNamed] at named
      cases plain : childHasContainer children with
      | false => exact .plainStruct children name _ plain
      | true =>
          have entries : ownEntries ((conformPresent (.struct children) value name).getD value) =
              setMembers (ownEntries value) (conformMembers children (ownEntries value)) := by
            rw [conformPresent, if_pos plain]
            split
            · rename_i unchanged
              rw [itself_getD, unchanged]
              rfl
            · rfl
          refine .struct children name _ (fun child member => ?_)
            fun child member held isHeld notNull => ?_
          · rw [entries, members_settled children _ named.1 child member]
            exact slot_settled child _
          · rw [entries, members_settled children _ named.1 child member] at isHeld
            obtain ⟨container, rfl⟩ | ⟨old, _, oldPresent, rfl⟩ := slot_cases child _ held isHeld notNull
            · exact emptyArray_conforming child.type child.name container
            · exact ih child member (wellNamed_of_mem children named.2 child member) child.name old
                oldPresent
  | other type noContainer noStruct => exact .other type name _ noContainer noStruct

/-! ## Values that conform already -/

mutual

/-- A NaN somewhere in a value: the one value that is not `===` itself. -/
def hasNaN : Rich → Bool
  | .number .nan => true
  | .array items => anyHasNaN items
  | .object members => memberHasNaN members
  | _ => false

def anyHasNaN : List Rich → Bool
  | [] => false
  | item :: rest => hasNaN item || anyHasNaN rest

def memberHasNaN : List (Text × Rich) → Bool
  | [] => false
  | (_, value) :: rest => hasNaN value || memberHasNaN rest

end

theorem hasNaN_item (items : List Rich) (free : anyHasNaN items = false) (item : Rich)
    (member : item ∈ items) : hasNaN item = false := by
  induction items with
  | nil => cases member
  | cons first rest ih =>
      rw [anyHasNaN, Bool.or_eq_false_iff] at free
      cases member with
      | head => exact free.1
      | tail _ member => exact ih free.2 member

theorem hasNaN_member (members : List (Text × Rich)) (free : memberHasNaN members = false)
    (entry : Text × Rich) (member : entry ∈ members) : hasNaN entry.2 = false := by
  induction members with
  | nil => cases member
  | cons first rest ih =>
      rw [memberHasNaN, Bool.or_eq_false_iff] at free
      cases member with
      | head => exact free.1
      | tail _ member => exact ih free.2 member

private theorem hasNaN_number (number : Number) (isNumber : number ≠ .nan) :
    hasNaN (.number number) = false := by
  cases number with
  | nan => exact absurd rfl isNumber
  | _ => rfl

private theorem hasNaN_getD (value : Option Rich)
    (free : ∀ held, value = some held → hasNaN held = false) : hasNaN (value.getD .null) = false := by
  cases value with
  | none => rfl
  | some held => exact free held rfl

private theorem hasNaN_pairOf (value : Rich) (free : hasNaN value = false) :
    hasNaN (pairOf value).2 = false := by
  cases value with
  | array items =>
      exact hasNaN_getD _ fun held isHeld => hasNaN_item items free held (List.mem_of_getElem? isHeld)
  | object members =>
      exact hasNaN_getD _ fun held isHeld =>
        hasNaN_member members free (_, held) (mem_of_lookupEntry members _ held isHeld)
  | _ => rfl

private theorem hasNaN_mapPairs (value : Rich) (free : hasNaN value = false) (pair : Rich × Rich)
    (member : pair ∈ mapPairs value) : hasNaN pair.2 = false := by
  cases value with
  | array items =>
      obtain ⟨item, inItems, rfl⟩ := List.mem_map.mp member
      exact hasNaN_pairOf item (hasNaN_item items free item inItems)
  | object members =>
      obtain ⟨entry, inMembers, rfl⟩ := List.mem_map.mp member
      exact hasNaN_member members free entry inMembers
  | string value =>
      obtain ⟨unit, _, rfl⟩ := List.mem_map.mp member
      rfl
  | _ => cases member

private theorem hasNaN_indexed (items : List Rich) (free : ∀ item ∈ items, hasNaN item = false)
    (entry : Text × Rich) (member : entry ∈ indexed items) : hasNaN entry.2 = false := by
  obtain ⟨⟨item, index⟩, inItems, rfl⟩ := List.mem_map.mp member
  exact free item (List.mem_of_getElem? (List.mem_zipIdx_iff_getElem?.mp inItems))

private theorem hasNaN_ownEntries (value : Rich) (free : hasNaN value = false)
    (entry : Text × Rich) (member : entry ∈ ownEntries value) : hasNaN entry.2 = false := by
  cases value with
  | object members => exact hasNaN_member members free entry member
  | array items => exact hasNaN_indexed items (hasNaN_item items free) entry member
  | bytes value =>
      refine hasNaN_indexed _ (fun item inItems => ?_) entry member
      obtain ⟨byte, _, rfl⟩ := List.mem_map.mp inItems
      exact hasNaN_number _ (Number.ofInt_ne_nan byte.toNat)
  | string value =>
      refine hasNaN_indexed _ (fun item inItems => ?_) entry member
      obtain ⟨unit, _, rfl⟩ := List.mem_map.mp inItems
      rfl
  | _ => cases member

private theorem itself_none (value : Rich) (free : hasNaN value = false) : itself value = none := by
  unfold itself
  split
  · cases free
  · rfl

private theorem conformElement_none (type : DataType) (mayBeNull : Bool)
    (present : Rich → Option Rich) (value : Rich)
    (filled : isRichNull value = true → mayBeNull = true ∨ hasZero type = false)
    (kept : isRichNull value = false → present value = none) :
    conformElement type mayBeNull present value = none := by
  rw [conformElement]
  split
  · rename_i isNull
    rw [if_pos]
    rw [Bool.or_eq_true, isRichNull_zeroValue, Bool.not_eq_true']
    exact filled isNull
  · rename_i notNull
    exact kept (Bool.eq_false_iff.mpr notNull)

theorem conformMembers_nil (children : List Field) (members : List (Text × Rich))
    (kept : ∀ child ∈ children,
      conformValue child.type (lookupEntry members child.name) child.nullable child.name = none) :
    conformMembers children members = [] := by
  induction children with
  | nil => rfl
  | cons child rest ih =>
      obtain ⟨name, type, nullable, metadata⟩ := child
      have here := kept _ List.mem_cons_self
      rw [conformValue] at here
      rw [conformMembers, here]
      exact ih fun other member => kept other (List.mem_cons_of_mem _ member)

theorem conformValue_none (field : Field) (value : Option Rich)
    (settled : SlotSettled field value)
    (kept : ∀ held, value = some held → isRichNull held = false →
      conformPresent field.type held field.name = none) :
    conformValue field.type value field.nullable field.name = none := by
  cases value with
  | none =>
      obtain ⟨required, noContainer⟩ := settled
      simp [conformValue, conformSlot, required, noContainer]
  | some held =>
      cases isNull : isRichNull held with
      | true =>
          obtain rfl := (isRichNull_iff held).mp isNull
          obtain nullable | noContainer := settled
          · simp [conformValue, conformSlot, nullable]
          · simp [conformValue, conformSlot, noContainer]
      | false =>
          have same := kept held rfl isNull
          cases held with
          | null => cases isNull
          | _ => exact same

/-- A value that keeps the wire rules is handed back, unless there is a NaN in it. -/
theorem conformPresent_none (type : DataType) (name : Text) (value : Rich)
    (conforming : Conforming type name value) (free : hasNaN value = false) :
    conformPresent type value name = none := by
  induction conforming with
  | list item rest name items filled each ih =>
      have kept : (arrayFrom (.array items)).all (fun element => (conformElement item.type
          (decide (name ∈ optionalItemFields)) (fun held => conformPresent item.type held name)
          element).isNone) = true := by
        refine List.all_eq_true.mpr fun element member => Option.isNone_iff_eq_none.mpr ?_
        exact conformElement_none _ _ _ _
          (fun isNull => (filled element member isNull).imp_left decide_eq_true)
          fun present => ih element member present (hasNaN_item items free element member)
      rw [conformPresent]
      unfold conformItems
      dsimp only
      rw [isArray, Bool.true_and, if_pos kept]
  | emptyList name value => exact itself_none value free
  | map keysSorted children valueType name value isValue filled each ih =>
      rw [conformPresent_map keysSorted children valueType isValue]
      refine if_pos (List.all_eq_true.mpr fun pair member => Option.isNone_iff_eq_none.mpr ?_)
      exact conformElement_none _ _ _ _ (fun isNull => .inr (filled pair member isNull))
        fun present => ih pair member present (hasNaN_mapPairs value free pair member)
  | otherMap keysSorted children name value noValue =>
      rw [conformPresent_otherMap keysSorted children noValue]
      exact itself_none value free
  | struct children name value settled each ih =>
      have kept : conformMembers children (ownEntries value) = [] :=
        conformMembers_nil children _ fun child member =>
          conformValue_none child _ (settled child member) fun held isHeld present =>
            ih child member held isHeld present (hasNaN_ownEntries value free (_, held)
              (mem_of_lookupEntry _ _ held isHeld))
      rw [conformPresent]
      split
      · rw [kept]
        exact itself_none value free
      · exact itself_none value free
  | plainStruct children name value plain =>
      rw [conformPresent, if_neg (by rw [plain]; exact Bool.false_ne_true)]
      exact itself_none value free
  | other type name value noContainer noStruct =>
      cases type with
      | list children => cases noContainer
      | map keysSorted children => cases noContainer
      | struct children => cases noStruct
      | _ => exact itself_none value free

/-! ## A second pass -/

private theorem hasNaN_zeroMembers (children : List Field) (entry : Text × Rich)
    (member : entry ∈ zeroMembers children) : hasNaN entry.2 = false := by
  induction children with
  | nil => cases member
  | cons child rest ih =>
      obtain ⟨name, type, nullable, metadata⟩ := child
      rw [zeroMembers] at member
      cases member with
      | head =>
          dsimp only [emptyContainer]
          split
          · rfl
          · split
            · rfl
            · rfl
      | tail _ member => exact ih member

private theorem mem_setMembers (members replaced : List (Text × Rich)) (entry : Text × Rich)
    (member : entry ∈ setMembers members replaced) : entry ∈ members ∨ entry ∈ replaced := by
  induction replaced generalizing members with
  | nil => exact .inl member
  | cons first rest ih =>
      obtain inSet | inRest := ih (setEntry members first.1 first.2) member
      · obtain before | rfl := OrderedMap.mem_setEntry members first.1 first.2 entry inSet
        · exact .inl before
        · exact .inr List.mem_cons_self
      · exact .inr (List.mem_cons_of_mem _ inRest)

private theorem memberHasNaN_iff (members : List (Text × Rich)) :
    memberHasNaN members = false ↔ ∀ entry ∈ members, hasNaN entry.2 = false := by
  refine ⟨hasNaN_member members, fun each => ?_⟩
  induction members with
  | nil => rfl
  | cons first rest ih =>
      rw [memberHasNaN, each first List.mem_cons_self, Bool.false_or]
      exact ih fun entry member => each entry (List.mem_cons_of_mem _ member)

private theorem hasNaN_zeroValue (type : DataType) : hasNaN (zeroValue type) = false :=
  match type with
  | .dictionary _ dictionary _ _ => hasNaN_zeroValue dictionary
  | .int bitWidth _ => by
      rw [zeroValue]
      split
      · rfl
      · rfl
  | .struct children => by
      rw [zeroValue, hasNaN, memberHasNaN_iff]
      intro entry member
      obtain inNone | inZero := mem_setMembers [] (zeroMembers children) entry member
      · cases inNone
      · exact hasNaN_zeroMembers children entry inZero
  | .utf8 | .largeUtf8 | .binary | .largeBinary | .bool | .float _ | .list _ | .map _ _
  | .null | .decimal _ _ _ | .date _ | .time _ _ | .timestamp _ _ | .interval _
  | .union _ _ _ | .fixedSizeBinary _ | .fixedSizeList _ _ | .duration _ => rfl

private theorem setEntry_same (members : List (Text × Rich)) (name : Text) (value : Rich)
    (held : lookupEntry members name = some value) : setEntry members name value = members := by
  induction members with
  | nil => cases held
  | cons first rest ih =>
      rw [lookupEntry] at held
      rw [setEntry]
      split
      · rename_i same
        rw [if_pos same] at held
        cases held
        rw [← same]
      · rename_i differ
        rw [if_neg differ] at held
        rw [ih held]

private theorem setMembers_same (members replaced : List (Text × Rich))
    (held : ∀ entry ∈ replaced, lookupEntry members entry.1 = some entry.2) :
    setMembers members replaced = members := by
  induction replaced with
  | nil => rfl
  | cons first rest ih =>
      rw [setMembers, List.foldl_cons, setEntry_same members first.1 first.2
        (held first List.mem_cons_self), ← setMembers]
      exact ih fun entry member => held entry (List.mem_cons_of_mem _ member)

theorem mem_conformMembers (children : List Field) (members : List (Text × Rich))
    (entry : Text × Rich) (member : entry ∈ conformMembers children members) :
    ∃ child ∈ children, child.name = entry.1 ∧
      conformValue child.type (lookupEntry members child.name) child.nullable child.name =
        some entry.2 := by
  induction children with
  | nil => cases member
  | cons child rest ih =>
      obtain ⟨name, type, nullable, metadata⟩ := child
      have later (inRest : entry ∈ conformMembers rest members) :
          ∃ child ∈ ⟨name, type, nullable, metadata⟩ :: rest, child.name = entry.1 ∧
            conformValue child.type (lookupEntry members child.name) child.nullable child.name =
              some entry.2 := by
        obtain ⟨child, inChildren, found⟩ := ih inRest
        exact ⟨child, List.mem_cons_of_mem _ inChildren, found⟩
      rw [conformMembers] at member
      split at member
      · rename_i next replaced
        cases member with
        | head => exact ⟨_, List.mem_cons_self, rfl, replaced⟩
        | tail _ member => exact later member
      · exact later member

section

variable (type : DataType) (named : WellNamed type)

include named

private theorem element_again (name : Text) (mayBeNull : Bool)
    (ih : ∀ value, isRichNull value = false →
      let new := (conformPresent type value name).getD value
      (conformPresent type new name).getD new = new) (value : Rich) :
    let next := conformElement type mayBeNull fun held => conformPresent type held name
    (next ((next value).getD value)).getD ((next value).getD value) = (next value).getD value := by
  dsimp only
  cases isNull : isRichNull value with
  | true =>
      cases left : mayBeNull || isRichNull (zeroValue type) with
      | true =>
          have same : conformElement type mayBeNull (fun held => conformPresent type held name)
              value = none := by
            rw [conformElement, if_pos isNull, if_pos left]
          rw [same, Option.getD_none, same, Option.getD_none]
      | false =>
          have filled : conformElement type mayBeNull (fun held => conformPresent type held name)
              value = some (zeroValue type) := by
            rw [conformElement, if_pos isNull, if_neg (by rw [left]; exact Bool.false_ne_true)]
          rw [Bool.or_eq_false_iff] at left
          have zero : hasZero type = true := by
            have present := left.2
            rw [isRichNull_zeroValue] at present
            simpa using present
          rw [filled, Option.getD_some, conformElement,
            if_neg (by rw [left.2]; exact Bool.false_ne_true),
            conformPresent_none type name _ (zeroValue_conforming type named name zero)
              (hasNaN_zeroValue type), Option.getD_none]
  | false =>
      have here (held : Rich) (present : isRichNull held = false) :
          conformElement type mayBeNull (fun held => conformPresent type held name) held =
            conformPresent type held name := by
        rw [conformElement, if_neg (by rw [present]; exact Bool.false_ne_true)]
      rw [here value isNull, here _ (conformPresent_present type value name isNull)]
      exact ih value isNull

end

private theorem conformPresent_emptyArray (type : DataType) (name : Text)
    (container : isContainer type = true) : conformPresent type (.array []) name = none :=
  conformPresent_none type name _ (emptyArray_conforming type name container) rfl

/-- A slot holds what it held, after a second pass. -/
private theorem slot_again (field : Field)
    (ih : ∀ value, isRichNull value = false →
      let new := (conformPresent field.type value field.name).getD value
      (conformPresent field.type new field.name).getD new = new)
    (value : Option Rich) (next : Rich)
    (replaced : conformValue field.type
      ((conformValue field.type value field.nullable field.name).or value) field.nullable
      field.name = some next) :
    (conformValue field.type value field.nullable field.name).or value = some next := by
  have settled := slot_settled field value
  have cases := slot_cases field value
  generalize (conformValue field.type value field.nullable field.name).or value = new at *
  cases new with
  | none =>
      obtain ⟨required, noContainer⟩ := settled
      simp [conformValue, conformSlot, required, noContainer] at replaced
  | some held =>
      cases isNull : isRichNull held with
      | true =>
          obtain rfl := (isRichNull_iff held).mp isNull
          obtain nullable | noContainer := settled
          · simp [conformValue, conformSlot, nullable] at replaced
          · simp [conformValue, conformSlot, noContainer] at replaced
      | false =>
          have present : conformPresent field.type held field.name = some next := by
            cases held with
            | null => cases isNull
            | _ => exact replaced
          obtain ⟨container, rfl⟩ | ⟨old, _, oldPresent, rfl⟩ := cases held rfl isNull
          · rw [conformPresent_emptyArray field.type field.name container] at present
            cases present
          · have again := ih old oldPresent
            dsimp only at again
            rw [present, Option.getD_some] at again
            rw [again]

theorem conformMembers_again (children : List Field) (members : List (Text × Rich))
    (nodup : (children.map FieldOf.name).Nodup)
    (ih : ∀ child ∈ children, ∀ value, isRichNull value = false →
      let new := (conformPresent child.type value child.name).getD value
      (conformPresent child.type new child.name).getD new = new) :
    let once := setMembers members (conformMembers children members)
    setMembers once (conformMembers children once) = once := by
  refine setMembers_same _ _ fun entry member => ?_
  obtain ⟨child, inChildren, name, replaced⟩ := mem_conformMembers children _ entry member
  rw [← name]
  rw [members_settled children members nodup child inChildren] at replaced ⊢
  exact slot_again child (ih child inChildren) _ entry.2 replaced

/-- A value is as conformed after one pass as after two. -/
theorem conformPresent_again (type : DataType) (named : WellNamed type) (name : Text)
    (value : Rich) (present : isRichNull value = false) :
    let new := (conformPresent type value name).getD value
    (conformPresent type new name).getD new = new := by
  dsimp only
  induction type using containerInduction generalizing name value with
  | list item rest ih =>
      rw [WellNamed] at named
      have itemNamed := wellNamed_of_mem (item :: rest) named item List.mem_cons_self
      have each := element_again item.type itemNamed name (decide (name ∈ optionalItemFields))
        (fun value => ih itemNamed name value)
      cases replaced : conformPresent (.list (item :: rest)) value name with
      | none => rw [Option.getD_none, replaced, Option.getD_none]
      | some next =>
          rw [conformPresent] at replaced
          unfold conformItems at replaced
          dsimp only at replaced
          split at replaced
          · cases replaced
          · cases replaced
            rw [Option.getD_some, conformPresent]
            unfold conformItems
            dsimp only
            split
            · rfl
            · rw [Option.getD_some, arrayFrom]
              refine congrArg Rich.array ?_
              rw [replaceItems, replaceItems, List.map_map]
              exact List.map_congr_left fun element _ => each element
  | emptyList => exact itself_again value
  | map keysSorted children valueType isValue ih =>
      rw [WellNamed] at named
      have valueNamed := wellNamed_mapValue children named valueType isValue
      have each := element_again valueType valueNamed name false
        (fun value => ih valueNamed name value)
      cases replaced : conformPresent (.map keysSorted children) value name with
      | none => rw [Option.getD_none, replaced, Option.getD_none]
      | some next =>
          rw [conformPresent_map keysSorted children valueType isValue] at replaced ⊢
          dsimp only at replaced ⊢
          split at replaced
          · cases replaced
          · cases replaced
            rw [Option.getD_some, mapPairs_pairArrays]
            split
            · rfl
            · rw [Option.getD_some]
              refine congrArg (fun pairs : List (Rich × Rich) => Rich.array (pairs.map pairArray)) ?_
              rw [replaceValues, replaceValues, List.map_map]
              exact List.map_congr_left fun pair _ => congrArg (Prod.mk pair.1) (each pair.2)
  | otherMap keysSorted children noValue =>
      rw [conformPresent_otherMap keysSorted children noValue,
        conformPresent_otherMap keysSorted children noValue]
      exact itself_again value
  | struct children ih =>
      rw [WellNamed] at named
      cases replaced : conformPresent (.struct children) value name with
      | none => rw [Option.getD_none, replaced, Option.getD_none]
      | some next =>
          rw [Option.getD_some]
          rw [conformPresent] at replaced
          split at replaced
          · rename_i container
            split at replaced
            · rename_i unchanged
              have same : value = next := by
                have kept := itself_getD value
                rw [replaced] at kept
                exact kept.symm
              rw [← same, conformPresent, if_pos container, unchanged]
              exact itself_getD value
            · cases replaced
              rw [conformPresent, if_pos container]
              split
              · exact itself_getD _
              · exact congrArg Rich.object (conformMembers_again children _ named.1
                  fun child member value => ih child member
                    (wellNamed_of_mem children named.2 child member) child.name value)
          · rename_i plain
            rw [conformPresent, if_neg plain]
            exact itself_getD next
  | other type noContainer noStruct =>
      cases type with
      | list children => cases noContainer
      | map keysSorted children => cases noContainer
      | struct children => cases noStruct
      | _ => exact itself_again value

end VgiWorker.Codec
