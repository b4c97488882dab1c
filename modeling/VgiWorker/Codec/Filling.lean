import VgiWorker.Codec.Conformance

/-!
# What conforming leaves alone

Conforming fills slots that are null or missing with defaults. Every other value
stays, at every depth.
-/

set_option autoImplicit false

namespace VgiWorker.Codec

open Js Arrow
open Protocol (Row optionalItemFields)

/-- What a column or a struct child may hold where there was no value. -/
def DefaultedSlot (field : Field) (old new : Option Rich) : Prop :=
  new = old ∨ (field.nullable = true ∧ old = none ∧ new = some .null) ∨
    (field.nullable = false ∧ isContainer field.type = true ∧ new = some (.array []))

/-- What a list item or a map value may be where it was null. -/
def DefaultedElement (type : DataType) (mayBeNull : Bool) (old new : Rich) : Prop :=
  new = old ∨ (mayBeNull = false ∧ new = zeroValue type)

def isMissing (value : Option Rich) : Bool :=
  isRichNull (value.getD .null)

/-- The second value is the first one with defaults where there was no value. -/
inductive Filled : DataType → Text → Rich → Rich → Prop
  | same (type : DataType) (name : Text) (value : Rich) : Filled type name value value
  | list (item : Field) (rest : List Field) (name : Text) (before : Rich) (next : Rich → Rich)
      (defaults : ∀ old ∈ arrayFrom before, isRichNull old = true →
        DefaultedElement item.type (decide (name ∈ optionalItemFields)) old (next old))
      (each : ∀ old ∈ arrayFrom before, isRichNull old = false →
        Filled item.type name old (next old)) :
      Filled (.list (item :: rest)) name before (.array ((arrayFrom before).map next))
  | map (keysSorted : Bool) (children : List Field) (valueType : DataType) (name : Text)
      (before : Rich) (next : Rich → Rich) (isValue : mapValueType? children = some valueType)
      (defaults : ∀ pair ∈ mapPairs before, isRichNull pair.2 = true →
        DefaultedElement valueType false pair.2 (next pair.2))
      (each : ∀ pair ∈ mapPairs before, isRichNull pair.2 = false →
        Filled valueType name pair.2 (next pair.2)) :
      Filled (.map keysSorted children) name before
        (.array ((mapPairs before).map fun pair => pairArray (pair.1, next pair.2)))
  | struct (children : List Field) (name : Text) (before : Rich) (members : List (Text × Rich))
      (next : Field → Rich → Rich)
      (others : ∀ key, key ∉ children.map FieldOf.name →
        lookupEntry members key = lookupEntry (ownEntries before) key)
      (defaults : ∀ child ∈ children, isMissing (lookupEntry (ownEntries before) child.name) = true →
        DefaultedSlot child (lookupEntry (ownEntries before) child.name)
          (lookupEntry members child.name))
      (each : ∀ child ∈ children, ∀ old, lookupEntry (ownEntries before) child.name = some old →
        isRichNull old = false → Filled child.type child.name old (next child old))
      (held : ∀ child ∈ children, ∀ old, lookupEntry (ownEntries before) child.name = some old →
        isRichNull old = false → lookupEntry members child.name = some (next child old)) :
      Filled (.struct children) name before (.object members)

/-- The second record is the first one with defaults where there was no value. -/
structure RecordFilled (schema : Schema) (before after : Row) : Prop where
  others : ∀ key, key ∉ schema.fields.map FieldOf.name → lookupEntry after key = lookupEntry before key
  defaults : ∀ field ∈ schema.fields, isMissing (lookupEntry before field.name) = true →
    DefaultedSlot field (lookupEntry before field.name) (lookupEntry after field.name)
  each : ∀ field ∈ schema.fields, ∀ old, lookupEntry before field.name = some old →
    isRichNull old = false →
    ∃ new, lookupEntry after field.name = some new ∧ Filled field.type field.name old new

private theorem element_defaulted (type : DataType) (mayBeNull : Bool)
    (present : Rich → Option Rich) (old : Rich) (isNull : isRichNull old = true) :
    DefaultedElement type mayBeNull old ((conformElement type mayBeNull present old).getD old) := by
  rw [conformElement, if_pos isNull]
  split
  · exact .inl rfl
  · rename_i filled
    rw [Bool.or_eq_true, not_or, Bool.not_eq_true] at filled
    exact .inr ⟨filled.1, rfl⟩

private theorem element_present (type : DataType) (mayBeNull : Bool)
    (present : Rich → Option Rich) (old : Rich) (notNull : isRichNull old = false) :
    conformElement type mayBeNull present old = present old := by
  rw [conformElement, if_neg (by rw [notNull]; exact Bool.false_ne_true)]

private theorem slot_defaulted (field : Field) (value : Option Rich)
    (missing : isMissing value = true) :
    DefaultedSlot field value
      ((conformValue field.type value field.nullable field.name).or value) := by
  unfold conformValue conformSlot
  split
  · cases nullable : field.nullable with
    | true => exact .inr (.inl ⟨nullable, rfl, rfl⟩)
    | false =>
        cases container : isContainer field.type with
        | true => exact .inr (.inr ⟨nullable, container, rfl⟩)
        | false => exact .inl rfl
  · cases nullable : field.nullable with
    | true => exact .inl rfl
    | false =>
        cases container : isContainer field.type with
        | true => exact .inr (.inr ⟨nullable, container, rfl⟩)
        | false => exact .inl rfl
  · rename_i notNull
    exact absurd ((isRichNull_iff _).mp missing) notNull

private theorem slot_present (field : Field) (old : Rich) (present : isRichNull old = false) :
    (conformValue field.type (some old) field.nullable field.name).or (some old) =
      some ((conformPresent field.type old field.name).getD old) := by
  have same : conformValue field.type (some old) field.nullable field.name =
      conformPresent field.type old field.name := by
    cases old with
    | null => cases present
    | _ => rfl
  rw [same]
  cases conformPresent field.type old field.name with
  | none => rfl
  | some next => rfl

private theorem members_others (children : List Field) (members : List (Text × Rich)) (key : Text)
    (other : key ∉ children.map FieldOf.name) :
    lookupEntry (setMembers members (conformMembers children members)) key =
      lookupEntry members key := by
  rw [lookupEntry_setMembers]
  have absent : OrderedMap.lastOf (conformMembers children members) key = none := by
    rw [OrderedMap.lastOf, ← Option.not_isSome_iff_eq_none, lookupEntry_isSome,
      List.map_reverse, List.mem_reverse]
    intro member
    obtain ⟨entry, inReplaced, rfl⟩ := List.mem_map.mp member
    obtain ⟨child, inChildren, name, _⟩ := mem_conformMembers children members entry inReplaced
    exact other (List.mem_map.mpr ⟨child, inChildren, name⟩)
  rw [absent]
  rfl

/-- Conforming a value that is present only fills what was null or missing in it. -/
theorem conformPresent_filled (type : DataType) (named : WellNamed type) (name : Text)
    (value : Rich) : Filled type name value ((conformPresent type value name).getD value) := by
  induction type using containerInduction generalizing name value with
  | list item rest ih =>
      rw [WellNamed] at named
      have itemNamed := wellNamed_of_mem (item :: rest) named item List.mem_cons_self
      rw [conformPresent]
      unfold conformItems
      dsimp only
      split
      · exact .same _ name value
      · rw [Option.getD_some]
        refine .list item rest name value _ (fun old _ isNull => element_defaulted _ _ _ old isNull)
          fun old _ present => ?_
        rw [element_present _ _ _ old present]
        exact ih itemNamed name old
  | emptyList =>
      rw [conformPresent, conformItems, itself_getD]
      exact .same _ name value
  | map keysSorted children valueType isValue ih =>
      rw [WellNamed] at named
      have valueNamed := wellNamed_mapValue children named valueType isValue
      rw [conformPresent_map keysSorted children valueType isValue]
      dsimp only
      split
      · exact .same _ name value
      · rw [Option.getD_some, replaceValues, List.map_map]
        let next (held : Rich) := (conformElement valueType false
          (fun held => conformPresent valueType held name) held).getD held
        refine .map keysSorted children valueType name value next isValue
          (fun pair _ isNull => element_defaulted _ _ _ pair.2 isNull) fun pair _ present => ?_
        dsimp only [next]
        rw [element_present _ _ _ pair.2 present]
        exact ih valueNamed name pair.2
  | otherMap keysSorted children noValue =>
      rw [conformPresent_otherMap keysSorted children noValue, itself_getD]
      exact .same _ name value
  | struct children ih =>
      rw [WellNamed] at named
      rw [conformPresent]
      split
      · split
        · rw [itself_getD]
          exact .same _ name value
        · rw [Option.getD_some]
          refine .struct children name value _
            (fun child old => (conformPresent child.type old child.name).getD old)
            (members_others children _) (fun child member missing => ?_)
            (fun child member old _ _ => ?_) fun child member old isOld present => ?_
          · rw [members_settled children _ named.1 child member]
            exact slot_defaulted child _ missing
          · exact ih child member (wellNamed_of_mem children named.2 child member) child.name old
          · rw [members_settled children _ named.1 child member, isOld,
              slot_present child old present]
      · rw [itself_getD]
        exact .same _ name value
  | other type noContainer noStruct =>
      have kept : (conformPresent type value name).getD value = value := by
        cases type with
        | list children => cases noContainer
        | map keysSorted children => cases noContainer
        | struct children => cases noStruct
        | _ => exact itself_getD value
      rw [kept]
      exact .same type name value

/-! ## Records -/

private def entryFields : Schema where
  fields := [⟨text "name", .utf8, false, .empty⟩, ⟨text "comment", .utf8, true, .empty⟩,
    ⟨text "tags", .list [⟨text "item", .utf8, false, .empty⟩], false, .empty⟩,
    ⟨text "argument_names", .list [⟨text "item", .utf8, false, .empty⟩], false, .empty⟩]
  metadata := .empty

private theorem entryFields_named :
    (entryFields.fields.map FieldOf.name).Nodup ∧ AllWellNamed entryFields.fields :=
  ⟨by decide, by simp [entryFields, AllWellNamed, WellNamed]⟩

end VgiWorker.Codec
