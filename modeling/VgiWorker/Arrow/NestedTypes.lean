import VgiWorker.Arrow.Types

/-!
# Nested types

Induction over the types that have children.
-/

set_option autoImplicit false

namespace VgiWorker.Arrow

open VgiWorker.Js

/-- A type without children. -/
def DataType.isLeaf : DataType → Bool
  | .list _ | .struct _ | .union _ _ _ | .fixedSizeList _ _ | .map _ _ | .dictionary _ _ _ _ => false
  | _ => true

/-- The key and the value type of a map whose entry has both. -/
def mapEntryTypes? : List (FieldOf DataType) → Option (DataType × DataType)
  | ⟨_, .struct (⟨_, keyType, _, _⟩ :: ⟨_, valueType, _, _⟩ :: _), _, _⟩ :: _ =>
      some (keyType, valueType)
  | _ => none

theorem mapEntryTypes?_children (children : List Field) (keyType valueType : DataType)
    (types : mapEntryTypes? children = some (keyType, valueType)) :
    ∃ entryName keyName keyNullable keyMetadata valueName valueNullable valueMetadata more nullable
      metadata rest, children = ⟨entryName, .struct (⟨keyName, keyType, keyNullable, keyMetadata⟩ ::
        ⟨valueName, valueType, valueNullable, valueMetadata⟩ :: more), nullable, metadata⟩ ::
          rest := by
  unfold mapEntryTypes? at types
  split at types
  · cases types
    exact ⟨_, _, _, _, _, _, _, _, _, _, _, rfl⟩
  · cases types

theorem sizeOf_childType (field : Field) (fields : List Field) (member : field ∈ fields) :
    sizeOf field.type < sizeOf fields := by
  obtain ⟨name, type, nullable, metadata⟩ := field
  have within := List.sizeOf_lt_of_mem member
  have inside : sizeOf type < sizeOf (FieldOf.mk name type nullable metadata) := by
    simp
    omega
  exact Nat.lt_trans inside within

private theorem sizeOf_mapEntryTypes? (children : List Field) (keyType valueType : DataType)
    (types : mapEntryTypes? children = some (keyType, valueType)) :
    sizeOf keyType < sizeOf children ∧ sizeOf valueType < sizeOf children := by
  obtain ⟨_, _, _, _, _, _, _, _, _, _, _, rfl⟩ :=
    mapEntryTypes?_children children keyType valueType types
  constructor
  · simp
    omega
  · simp
    omega

theorem nestedInduction {holds : DataType → Prop}
    (list : ∀ item rest, holds item.type → holds (.list (item :: rest)))
    (emptyList : holds (.list []))
    (fixedSizeList : ∀ listSize item rest, holds item.type →
      holds (.fixedSizeList listSize (item :: rest)))
    (emptyFixedSizeList : ∀ listSize, holds (.fixedSizeList listSize []))
    (map : ∀ keysSorted children keyType valueType,
      mapEntryTypes? children = some (keyType, valueType) → holds keyType → holds valueType →
      holds (.map keysSorted children))
    (otherMap : ∀ keysSorted children, mapEntryTypes? children = none →
      holds (.map keysSorted children))
    (struct : ∀ children, (∀ child ∈ children, holds child.type) → holds (.struct children))
    (union : ∀ mode typeIds children, (∀ child ∈ children, holds child.type) →
      holds (.union mode typeIds children))
    (dictionary : ∀ id dictionary indices ordered, holds dictionary →
      holds (.dictionary id dictionary indices ordered))
    (leaf : ∀ type, type.isLeaf = true → holds type) (type : DataType) : holds type := by
  induction size : sizeOf type using Nat.strongRecOn generalizing type with
  | ind n ih =>
    subst size
    cases type with
    | list children =>
        cases children with
        | nil => exact emptyList
        | cons item rest =>
            have smaller := sizeOf_childType item (item :: rest) List.mem_cons_self
            exact list item rest (ih _ (Nat.lt_trans smaller (by simp)) item.type rfl)
    | fixedSizeList listSize children =>
        cases children with
        | nil => exact emptyFixedSizeList listSize
        | cons item rest =>
            have smaller := sizeOf_childType item (item :: rest) List.mem_cons_self
            exact fixedSizeList listSize item rest
              (ih _ (Nat.lt_trans smaller (by simp)) item.type rfl)
    | map keysSorted children =>
        cases types : mapEntryTypes? children with
        | none => exact otherMap keysSorted children types
        | some pair =>
            obtain ⟨keySmaller, valueSmaller⟩ := sizeOf_mapEntryTypes? children pair.1 pair.2 types
            exact map keysSorted children pair.1 pair.2 types
              (ih _ (Nat.lt_trans keySmaller (by simp)) pair.1 rfl)
              (ih _ (Nat.lt_trans valueSmaller (by simp)) pair.2 rfl)
    | struct children =>
        refine struct children fun child member => ?_
        have smaller := sizeOf_childType child children member
        exact ih _ (Nat.lt_trans smaller (by simp)) child.type rfl
    | union mode typeIds children =>
        refine union mode typeIds children fun child member => ?_
        have smaller := sizeOf_childType child children member
        exact ih _ (Nat.lt_trans smaller (by simp)) child.type rfl
    | dictionary id dictionaryType indices ordered =>
        exact dictionary id dictionaryType indices ordered
          (ih _ (by simp; omega) dictionaryType rfl)
    | _ => exact leaf _ rfl

end VgiWorker.Arrow
