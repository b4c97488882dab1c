import VgiWorker.Arrow.RowReading
import VgiWorker.Js.OrderedMapRuns
import VgiWorker.Protocol.UserStateTypes

/-!
# User state across a token

The reader gives a state back exactly when it is of the kinds that a token holds.
-/

set_option autoImplicit false

namespace VgiWorker.Protocol.UserState

open VgiWorker.Js VgiWorker.Arrow

/-! ## What a reader yields -/

private theorem setEntry_forall₂ {Left Right : Type} {R : Left → Right → Prop} (name : Text)
    (value : Left) (other : Right) (entries : List (Text × Left)) (others : List (Text × Right))
    (related : List.Forall₂ (fun entry other => entry.1 = other.1 ∧ R entry.2 other.2) entries others)
    (here : R value other) :
    List.Forall₂ (fun entry other => entry.1 = other.1 ∧ R entry.2 other.2)
      (setEntry entries name value) (setEntry others name other) := by
  induction related with
  | nil => exact .cons ⟨rfl, here⟩ .nil
  | @cons entry other' _ _ first rest ih =>
      by_cases same : entry.1 = name
      · have same' : other'.1 = name := first.1.symm.trans same
        rw [setEntry, if_pos same, setEntry, if_pos same']
        exact .cons ⟨rfl, here⟩ rest
      · have different : other'.1 ≠ name := fun equal => same (first.1.trans equal)
        rw [setEntry, if_neg same, setEntry, if_neg different]
        exact .cons first ih

/-- Objects built of the same names have the same names. -/
private theorem ofEntries_forall₂ {Left Right : Type} {R : Left → Right → Prop}
    (entries : List (Text × Left)) (others : List (Text × Right))
    (related : List.Forall₂ (fun entry other => entry.1 = other.1 ∧ R entry.2 other.2)
      entries others) :
    List.Forall₂ (fun entry other => entry.1 = other.1 ∧ R entry.2 other.2)
      (OrderedMap.ofEntries entries).entries (OrderedMap.ofEntries others).entries := by
  have folded : ∀ (map : OrderedMap Text Left) (otherMap : OrderedMap Text Right),
      List.Forall₂ (fun entry other => entry.1 = other.1 ∧ R entry.2 other.2)
        map.entries otherMap.entries →
      List.Forall₂ (fun entry other => entry.1 = other.1 ∧ R entry.2 other.2)
        (entries.foldl (fun map entry => map.set entry.1 entry.2) map).entries
        (others.foldl (fun map entry => map.set entry.1 entry.2) otherMap).entries := by
    induction related with
    | nil => exact fun _ _ start => start
    | @cons entry other _ _ here _ ih =>
        intro map otherMap start
        refine ih _ _ ?_
        have kept := setEntry_forall₂ entry.1 entry.2 other.2 _ _ start here.2
        rw [here.1] at kept
        simpa only [OrderedMap.set, here.1] using kept
  exact folded _ _ .nil

private theorem subperm_ofEntries {Held : Type} (entries : List (Text × Held)) :
    List.Subperm (OrderedMap.ofEntries entries).keys (entries.map Prod.fst) :=
  List.subperm_of_subset (OrderedMap.nodup_keys _) fun key =>
    OrderedMap.mem_keys_of_ofEntries entries key

/-- An object with as many members as were set has each of them. -/
private theorem ofEntries_of_length {Held : Type} (entries : List (Text × Held))
    (all : entries.length ≤ (OrderedMap.ofEntries entries).entries.length) :
    (OrderedMap.ofEntries entries).entries = entries := by
  refine OrderedMap.entries_ofEntries entries ?_
  have permuted := (subperm_ofEntries entries).perm_of_length_le (by
    rwa [List.length_map, OrderedMap.keys, List.length_map])
  exact permuted.nodup_iff.mp (OrderedMap.nodup_keys _)

section

variable (dateText : Number → Text)

private theorem structToRich_forall₂ (fields : List Field) (value : Value)
    (members : List (Text × Rich)) (converts : structToRich dateText fields value = .ok members) :
    List.Forall₂ (fun field member => member.1 = field.name ∧
      ∃ cell, canonicalToRich dateText field.type cell = .ok member.2) fields members := by
  induction fields generalizing members with
  | nil =>
      cases converts
      exact .nil
  | cons field fields ih =>
      rw [structToRich] at converts
      obtain ⟨cell, _, converts⟩ := except_bind_ok _ _ _ converts
      obtain ⟨first, here, converts⟩ := except_bind_ok _ _ _ converts
      obtain ⟨others, later, converts⟩ := except_bind_ok _ _ _ converts
      cases converts
      exact .cons ⟨rfl, cell, here⟩ (ih others later)

/-- What the codec of a list type yields. -/
private theorem canonicalToRich_list (item : Field) (cell : Value) (rich : Rich)
    (converts : canonicalToRich dateText (.list [item]) cell = .ok rich) :
    rich = .null ∨ ∃ elements, rich = .array elements ∧ ∀ element ∈ elements,
      ∃ cell, canonicalToRich dateText item.type cell = .ok element := by
  rw [canonicalToRich, listToRich] at converts
  split at converts
  · cases converts
    exact .inl rfl
  · obtain ⟨cells, _, converts⟩ := except_bind_ok _ _ _ converts
    obtain ⟨elements, made, converts⟩ := except_bind_ok _ _ _ converts
    cases converts
    refine .inr ⟨elements, rfl, fun element member => ?_⟩
    obtain ⟨cell, _, found⟩ := except_mapM_sources _ _ _ made element member
    exact ⟨cell, found⟩

/-- What the codec of a struct type yields. -/
private theorem canonicalToRich_struct (fields : List Field) (cell : Value) (rich : Rich)
    (converts : canonicalToRich dateText (.struct fields) cell = .ok rich) :
    rich = .null ∨ ∃ members, rich = .object (OrderedMap.ofEntries members).entries ∧
      List.Forall₂ (fun field member => member.1 = field.name ∧
        ∃ cell, canonicalToRich dateText field.type cell = .ok member.2) fields members := by
  rw [canonicalToRich] at converts
  split at converts
  · cases converts
    exact .inl rfl
  · obtain ⟨members, made, converts⟩ := except_bind_ok _ _ _ converts
    cases converts
    exact .inr ⟨members, rfl, structToRich_forall₂ dateText fields cell members made⟩

/-- A value that holds no object. -/
private inductive Childless : Rich → Prop where
  | null : Childless .null
  | bool (value : Bool) : Childless (.bool value)
  | number (value : Number) : Childless (.number value)
  | bigint (value : Int) : Childless (.bigint value)
  | string (value : Text) : Childless (.string value)
  | bytes (value : Bytes) : Childless (.bytes value)

private theorem childless_scalar (type : DataType) (userType : UserType type)
    (noList : ∀ children, type ≠ .list children) (noStruct : ∀ children, type ≠ .struct children)
    (cell : Value) (rich : Rich) (converts : canonicalToRich dateText type cell = .ok rich) :
    Childless rich := by
  cases userType with
  | array item inner => exact absurd rfl (noList _)
  | object fields each => exact absurd rfl (noStruct _)
  | bigint =>
      cases cell with
      | number value =>
          simp only [canonicalToRich, isCanonicalNull, Bool.false_eq_true, if_false, scalarToRich,
            scalarToCanonical, checkInteger, Rich.ofValue] at converts
          obtain ⟨held, made, converts⟩ := except_bind_ok _ _ _ converts
          obtain ⟨integer, _, made⟩ := except_bind_ok _ _ _ made
          split at made
          · cases made
            cases converts
            exact .number value
          · cases made
      | bigint value =>
          simp only [canonicalToRich, isCanonicalNull, Bool.false_eq_true, if_false, scalarToRich,
            scalarToCanonical, checkInteger, Rich.ofValue] at converts
          obtain ⟨held, made, converts⟩ := except_bind_ok _ _ _ converts
          split at made
          · cases made
            cases converts
            exact .bigint value
          · cases made
      | null =>
          cases converts
          exact .null
      | _ => cases converts
  | _ => cases cell <;> cases converts <;> constructor

private theorem yielded_childless (type : DataType)
    (childless : ∀ cell rich, canonicalToRich dateText type cell = .ok rich → Childless rich) :
    (∀ cell rich, canonicalToRich dateText type cell = .ok rich →
      Portable (UserValue.ofRich rich)) ∧
    ∀ cell other rich otherRich, canonicalToRich dateText type cell = .ok rich →
      canonicalToRich dateText type other = .ok otherRich →
        SameNames (UserValue.ofRich rich) (UserValue.ofRich otherRich) := by
  constructor
  · intro cell rich converts
    cases childless cell rich converts <;> constructor
  · intro cell other rich otherRich converts otherConverts
    cases childless cell rich converts <;> exact trivial

private theorem membersSameNames (members others : List (Text × Rich))
    (related : List.Forall₂ (fun member other => member.1 = other.1 ∧
      SameNames (UserValue.ofRich member.2) (UserValue.ofRich other.2)) members others) :
    MembersSameNames (UserValue.ofRichMembers members) (UserValue.ofRichMembers others) := by
  induction related with
  | nil => exact trivial
  | @cons member other _ _ here _ ih =>
      obtain ⟨name, value⟩ := member
      obtain ⟨otherName, otherValue⟩ := other
      obtain ⟨rfl, alike⟩ := here
      rw [UserValue.ofRichMembers, UserValue.ofRichMembers]
      split
      · exact ih
      · exact ⟨rfl, alike, ih⟩

/-- What the codec yields is of the kinds that a token holds, and what it yields of one type has
the same names. -/
private theorem yielded (type : DataType) (userType : UserType type) :
    (∀ cell rich, canonicalToRich dateText type cell = .ok rich →
      Portable (UserValue.ofRich rich)) ∧
    ∀ cell other rich otherRich, canonicalToRich dateText type cell = .ok rich →
      canonicalToRich dateText type other = .ok otherRich →
        SameNames (UserValue.ofRich rich) (UserValue.ofRich otherRich) := by
  induction userType with
  | array item inner ih =>
      constructor
      · intro cell rich converts
        rcases canonicalToRich_list dateText item cell rich converts with rfl | ⟨elements, rfl, each⟩
        · exact .null
        · rw [UserValue.ofRich, ofRichElements_map]
          refine .array _ (fun value member => ?_) fun value member other isOther => ?_
          · obtain ⟨element, isElement, rfl⟩ := List.mem_map.mp member
            obtain ⟨cell, found⟩ := each element isElement
            exact ih.1 cell element found
          · obtain ⟨element, isElement, rfl⟩ := List.mem_map.mp member
            obtain ⟨otherElement, isOtherElement, rfl⟩ := List.mem_map.mp isOther
            obtain ⟨cell, found⟩ := each element isElement
            obtain ⟨otherCell, otherFound⟩ := each otherElement isOtherElement
            exact ih.2 _ _ _ _ found otherFound
      · intro cell other rich otherRich converts otherConverts
        rcases canonicalToRich_list dateText item cell rich converts with rfl | ⟨elements, rfl, each⟩
        · exact trivial
        · rcases canonicalToRich_list dateText item other otherRich otherConverts with
            rfl | ⟨others, rfl, eachOther⟩
          · exact trivial
          · rw [UserValue.ofRich, ofRichElements_map, UserValue.ofRich, ofRichElements_map]
            refine (elementsSameNames_iff _ _).mpr fun value member other isOther => ?_
            obtain ⟨element, isElement, rfl⟩ := List.mem_map.mp member
            obtain ⟨otherElement, isOtherElement, rfl⟩ := List.mem_map.mp isOther
            obtain ⟨cell, found⟩ := each element isElement
            obtain ⟨otherCell, otherFound⟩ := eachOther otherElement isOtherElement
            exact ih.2 _ _ _ _ found otherFound
  | object fields each ih =>
      constructor
      · intro cell rich converts
        rcases canonicalToRich_struct dateText fields cell rich converts with
          rfl | ⟨members, rfl, made⟩
        · exact .null
        · rw [UserValue.ofRich]
          refine .object _ (plain_ofRichMembers _) fun member isMember => ?_
          rw [ofRichMembers_filter] at isMember
          obtain ⟨entry, isEntry, rfl⟩ := List.mem_map.mp isMember
          obtain ⟨index, isHere⟩ := List.mem_iff_getElem?.mp
            (OrderedMap.mem_ofEntries _ entry (List.mem_of_mem_filter isEntry))
          obtain ⟨field, isField, _, cell, found⟩ := forall₂_getElem? made.flip index entry isHere
          exact (ih field (List.mem_of_getElem? isField)).1 cell entry.2 found
      · intro cell other rich otherRich converts otherConverts
        rcases canonicalToRich_struct dateText fields cell rich converts with
          rfl | ⟨members, rfl, made⟩
        · exact trivial
        · rcases canonicalToRich_struct dateText fields other otherRich otherConverts with
            rfl | ⟨others, rfl, otherMade⟩
          · exact trivial
          · rw [UserValue.ofRich, UserValue.ofRich]
            refine membersSameNames _ _ (@ofEntries_forall₂ _ _ (fun rich otherRich =>
              SameNames (UserValue.ofRich rich) (UserValue.ofRich otherRich)) members others ?_)
            obtain ⟨lengths, eachMade⟩ := List.forall₂_iff_get.mp made
            obtain ⟨otherLengths, eachOther⟩ := List.forall₂_iff_get.mp otherMade
            refine List.forall₂_iff_get.mpr ⟨lengths.symm.trans otherLengths, ?_⟩
            intro index inMembers inOthers
            have inFields : index < fields.length := by rwa [lengths]
            obtain ⟨named, cell, found⟩ := eachMade index inFields inMembers
            obtain ⟨otherNamed, otherCell, otherFound⟩ := eachOther index inFields inOthers
            exact ⟨named.trans otherNamed.symm,
              (ih _ (List.get_mem fields ⟨index, inFields⟩)).2 _ _ _ _ found otherFound⟩
  | _ =>
      exact yielded_childless dateText _ fun cell rich =>
        childless_scalar dateText _ (by constructor) (by simp) (by simp) cell rich

/-! ## Names on the wire -/

theorem decodedFields_map (fields : List Field) :
    decodedFields fields = fields.map fun field =>
      ⟨receivedName field.name, decodedType field.type, field.nullable, field.metadata⟩ := by
  induction fields with
  | nil => rfl
  | cons field rest ih =>
      obtain ⟨name, type, nullable, metadata⟩ := field
      rw [decodedFields, ih, List.map_cons]

theorem decodedType_userType (type : DataType) (userType : UserType type) :
    UserType (decodedType type) := by
  induction userType with
  | array item inner ih =>
      rw [decodedType, decodedFields_map]
      exact .array _ ih
  | object fields each ih =>
      rw [decodedType]
      refine .object _ fun field member => ?_
      rw [decodedFields_map] at member
      obtain ⟨source, isSource, rfl⟩ := List.mem_map.mp member
      exact ih source isSource
  | _ =>
      rw [decodedType]
      constructor
      all_goals simp

/-- A type all of whose names arrive unchanged. -/
def Stable (type : DataType) : Prop :=
  decodedType type = type

private theorem receivedName_item : receivedName listChildName = listChildName := by
  decide +kernel

private theorem stable_list (type : DataType) (stable : Stable type) :
    Stable (.list [stateField listChildName type]) := by
  rw [Stable, decodedType, decodedFields_map, List.map_singleton]
  simp only [stateField, receivedName_item, show decodedType type = type from stable]

private theorem stable_of_list (item : Field) (stable : Stable (.list [item])) :
    Stable item.type := by
  rw [Stable, decodedType, decodedFields_map, List.map_singleton] at stable
  injection stable with children
  injection children with field
  exact congrArg FieldOf.type field

private theorem stable_struct_iff (fields : List Field) :
    Stable (.struct fields) ↔
      ∀ field ∈ fields, receivedName field.name = field.name ∧ Stable field.type := by
  rw [Stable, decodedType, decodedFields_map, DataType.struct.injEq]
  constructor
  · intro same field member
    have kept := List.map_inj_left.mp (same.trans (List.map_id fields).symm) field member
    exact ⟨congrArg FieldOf.name kept, congrArg FieldOf.type kept⟩
  · intro each
    refine (List.map_congr_left fun field member => ?_).trans (List.map_id _)
    obtain ⟨name, type⟩ := each field member
    rw [name, show decodedType field.type = field.type from type]
    rfl

private theorem stable_of_members (members : List (Text × UserValue)) (fields : List Field)
    (made : inferFields members = .ok fields) (others : List (Text × Rich))
    (yields : List.Forall₂ (fun field other => other.1 = field.name ∧
      ∃ cell, canonicalToRich dateText field.type cell = .ok other.2) (decodedFields fields) others)
    (same : members = UserValue.ofRichMembers (OrderedMap.ofEntries others).entries)
    (each : ∀ member ∈ members, ∀ type, inferFieldType member.2 = .ok type → ∀ cell rich,
      canonicalToRich dateText (decodedType type) cell = .ok rich →
        member.2 = UserValue.ofRich rich → Stable type) :
    Stable (.struct fields) := by
  rw [decodedFields_map] at yields
  have inferredEach := inferFields_ok members fields made
  -- As many members come back as there are fields, so that none was dropped on the way.
  have fewer := (subperm_ofEntries others).length_le
  have kept := List.length_filter_le (fun entry => decide (entry.1 ≠ text "__proto__"))
    (OrderedMap.ofEntries others).entries
  have whole : others.length = members.length := by
    have left := inferredEach.length_eq
    have right := yields.length_eq
    rw [List.length_map] at right
    omega
  rw [ofRichMembers_filter] at same
  rw [same, List.length_map] at whole
  rw [List.length_map, OrderedMap.keys, List.length_map] at fewer
  have all := List.filter_eq_self.mpr (List.length_filter_eq_length_iff.mp
    (Nat.le_antisymm kept (fewer.trans (Nat.le_of_eq whole))))
  rw [all, ofEntries_of_length others (whole.trans_le kept)] at same
  refine (stable_struct_iff fields).mpr fun field isField => ?_
  obtain ⟨index, isField⟩ := List.mem_iff_getElem?.mp isField
  obtain ⟨member, isMember, isStateField, found⟩ :=
    forall₂_getElem? inferredEach.flip index field isField
  obtain ⟨other, isOther, named, cell, converts⟩ := forall₂_getElem? yields index
    ⟨receivedName field.name, decodedType field.type, field.nullable, field.metadata⟩
    (by rw [List.getElem?_map, isField]; rfl)
  have isMember' := isMember
  rw [same, List.getElem?_map, isOther, Option.map_some, Option.some.injEq] at isMember'
  have memberName : member.1 = field.name := by rw [isStateField]; rfl
  refine ⟨named.symm.trans ((congrArg Prod.fst isMember').trans memberName), ?_⟩
  exact each member (List.mem_of_getElem? isMember) field.type found cell other.2 converts
    (congrArg Prod.snd isMember').symm

/-- A value that comes back as itself has names that arrive unchanged. -/
private theorem stable_of_yielded (value : UserValue) (portable : Portable value) :
    ∀ type, inferFieldType value = .ok type → ∀ cell rich,
      canonicalToRich dateText (decodedType type) cell = .ok rich →
        value = UserValue.ofRich rich → Stable type := by
  induction portable with
  | array elements each uniform ih =>
      intro type inferred cell rich converts same
      obtain ⟨elementType, made, rfl⟩ := inferFieldType_array elements type inferred
      rw [decodedType, decodedFields_map, List.map_singleton] at converts
      rcases canonicalToRich_list dateText _ cell rich converts with rfl | ⟨others, rfl, yields⟩
      · cases same
      · rw [UserValue.ofRich, ofRichElements_map, UserValue.array.injEq] at same
        refine stable_list elementType ?_
        rcases (inferElementType_none elements elementType made).1 with
          ⟨element, member, _, found⟩ | rfl
        · rw [same] at member
          obtain ⟨other, isOther, rfl⟩ := List.mem_map.mp member
          obtain ⟨cell, converts⟩ := yields other isOther
          exact ih _ (same ▸ member) elementType found cell other converts rfl
        · rfl
  | object members plain each ih =>
      intro type inferred cell rich converts same
      obtain ⟨fields, made, rfl⟩ := inferFieldType_object members type inferred
      rw [decodedType] at converts
      rcases canonicalToRich_struct dateText _ cell rich converts with rfl | ⟨others, rfl, yields⟩
      · cases same
      · rw [UserValue.ofRich, UserValue.object.injEq] at same
        exact stable_of_members dateText members fields made others yields same ih
  | _ =>
      intro type inferred
      cases inferred
      intros
      rfl

/-! ## From the column to the state -/

/-- A cell of the type that the reader of the stream turns into the value. -/
private structure Carries (type : DataType) (value : Rich) : Prop where
  decoded : decodedCell type value.toValue = value.toValue
  converts : canonicalToRich dateText type value.toValue = .ok value

private theorem carries_null (type : DataType) (userType : UserType type) :
    Carries dateText type .null := by
  cases userType <;> exact ⟨rfl, rfl⟩

private theorem carries_array (item : Field) (elements : List Rich)
    (each : ∀ element ∈ elements, Carries dateText item.type element) :
    Carries dateText (.list [item]) (.array elements) := by
  have toElements : Rich.toElements elements = elements.map Rich.toValue := by
    clear each
    induction elements with
    | nil => rfl
    | cons element rest ih => rw [Rich.toElements, ih, List.map_cons]
  constructor
  · rw [Rich.toValue, toElements, decodedCell, decodedElements, List.map_map]
    exact congrArg Value.array (List.map_congr_left fun element member =>
      (each element member).decoded)
  · have made : (elements.map Rich.toValue).mapM (canonicalToRich dateText item.type) =
        .ok elements := by
      refine (except_mapM_iff _ _ _).mpr ?_
      rw [List.forall₂_map_left_iff, List.forall₂_same]
      exact fun element member => (each element member).converts
    rw [Rich.toValue, toElements, canonicalToRich, listToRich]
    simp [isCanonicalNull, canonicalElements, made]

private theorem carries_members (all : List (Text × Value)) (fields : List Field)
    (entries : List (Text × Rich))
    (related : List.Forall₂ (fun field entry => entry.1 = field.name ∧
      receivedName field.name = field.name ∧ Carries dateText field.type entry.2) fields entries)
    (found : ∀ entry ∈ entries, lookupEntry all entry.1 = some entry.2.toValue) :
    decodedMembers fields all = Rich.toEntries entries ∧
      structToRich dateText fields (.object all) = .ok entries := by
  induction related with
  | nil => exact ⟨rfl, rfl⟩
  | @cons field entry fields entries here rest ih =>
      obtain ⟨name, type, nullable, metadata⟩ := field
      obtain ⟨entryName, value⟩ := entry
      obtain ⟨rfl, received, carries⟩ := here
      have isMember := found (entryName, value) List.mem_cons_self
      obtain ⟨decoded, made⟩ := ih fun other member => found other (List.mem_cons_of_mem _ member)
      simp only at received isMember carries
      constructor
      · rw [decodedMembers, isMember, Option.getD_some, carries.decoded, decoded, received,
          Rich.toEntries]
      · rw [structToRich, canonicalMember, isMember, Option.getD_some, except_ok_bind,
          carries.converts, except_ok_bind, made, except_ok_bind]

private theorem toEntries_map (entries : List (Text × Rich)) :
    Rich.toEntries entries = entries.map fun entry => (entry.1, entry.2.toValue) := by
  induction entries with
  | nil => rfl
  | cons entry rest ih => rw [Rich.toEntries, ih, List.map_cons]

private theorem carries_object (fields : List Field) (entries : List (Text × Rich))
    (related : List.Forall₂ (fun field entry => entry.1 = field.name ∧
      receivedName field.name = field.name ∧ Carries dateText field.type entry.2) fields entries)
    (distinct : (entries.map Prod.fst).Nodup) :
    Carries dateText (.struct fields) (.object entries) := by
  have names : ((Rich.toEntries entries).map Prod.fst).Nodup := by
    rw [toEntries_map, List.map_map]
    exact distinct
  obtain ⟨decoded, made⟩ := carries_members dateText (Rich.toEntries entries) fields entries related
    fun entry member => lookupEntry_of_mem _ _ _ names (by
      rw [toEntries_map]
      exact List.mem_map_of_mem (f := fun entry : Text × Rich => (entry.1, entry.2.toValue)) member)
  constructor
  · rw [Rich.toValue, decodedCell, decoded, OrderedMap.entries_ofEntries _ names]
  · rw [Rich.toValue, canonicalToRich]
    simp [isCanonicalNull, made, OrderedMap.entries_ofEntries entries distinct]

@[simp] private theorem keptElements_map (elements : List Rich) :
    Rich.keptElements elements = elements.map Rich.kept := by
  induction elements with
  | nil => rfl
  | cons element rest ih => rw [Rich.keptElements, ih, List.map_cons]

@[simp] private theorem keptEntries_map (entries : List (Text × Rich)) :
    Rich.keptEntries entries = entries.map fun entry => (entry.1, entry.2.kept) := by
  induction entries with
  | nil => rfl
  | cons entry rest ih => rw [Rich.keptEntries, ih, List.map_cons]

/-- What a column gives back of a value reaches the state. -/
private theorem carries_kept (value : UserValue) (portable : Portable value) :
    ∀ type, WellFormed value → inferFieldType value = .ok type → Stable type →
      ∀ cell, richToCanonical dateText type value.toRich = .ok cell →
        Carries dateText type value.toRich.kept := by
  induction portable with
  | array elements each uniform ih =>
      intro type wellFormed inferred stable cell converts
      have userType := inferFieldType_userType _ _ inferred
      obtain ⟨elementType, made, rfl⟩ := inferFieldType_array elements type inferred
      have elementUser : UserType elementType := by cases userType with | array _ inner => exact inner
      rw [UserValue.toRich, toRichElements_map] at converts ⊢
      rw [richToCanonical, listToCanonical] at converts
      simp only [isRichNull, Bool.false_eq_true, if_false, richElements, except_ok_bind] at converts
      obtain ⟨items, canonical, _⟩ := except_bind_ok _ _ _ converts
      rw [Rich.kept, keptElements_map, List.map_map]
      refine carries_array dateText _ _ fun rich member => ?_
      obtain ⟨element, isElement, rfl⟩ := List.mem_map.mp member
      cases nullish : element.isNullish with
      | true =>
          have null : element.toRich = .null := by
            cases element <;> first | rfl | cases nullish
          rw [Function.comp_apply, null]
          exact carries_null dateText _ elementUser
      | false =>
          obtain ⟨item, _, found⟩ := except_mapM_each _ _ _ canonical element.toRich
            (List.mem_map_of_mem isElement)
          exact ih element isElement elementType
            ((elementsWellFormed_iff elements).mp wellFormed element isElement)
            (elementTypes elements each uniform elementType made element isElement nullish)
            (stable_of_list _ stable) item found
  | object members plain each ih =>
      intro type wellFormed inferred stable cell converts
      obtain ⟨fields, made, rfl⟩ := inferFieldType_object members type inferred
      obtain ⟨distinct, inner⟩ := wellFormed
      have names : ((members.map fun member => (member.1, member.2.toRich)).map
          Prod.fst).Nodup := by
        rw [List.map_map]
        exact distinct
      rw [UserValue.toRich, toRichMembers_map] at converts ⊢
      rw [richToCanonical] at converts
      simp only [isRichNull, Bool.false_eq_true, if_false] at converts
      obtain ⟨cells, canonical, _⟩ := except_bind_ok _ _ _ converts
      rw [Rich.kept, keptEntries_map, List.map_map]
      refine carries_object dateText fields _ ?_ (by
        rw [List.map_map]
        exact distinct)
      rw [List.forall₂_map_right_iff]
      have inferredEach := inferFields_ok members fields made
      have canonicalEach := structToCanonical_forall₂ dateText fields _ cells canonical
      obtain ⟨lengths, eachField⟩ := List.forall₂_iff_get.mp inferredEach
      obtain ⟨cellLengths, eachCell⟩ := List.forall₂_iff_get.mp canonicalEach
      refine List.forall₂_iff_get.mpr ⟨lengths.symm, fun index inFields inMembers => ?_⟩
      obtain ⟨isField, found⟩ := eachField index inMembers inFields
      obtain ⟨_, rich, isRich, converts⟩ := eachCell index inFields (by rwa [← cellLengths])
      have memberName : (members.get ⟨index, inMembers⟩).1 = (fields.get ⟨index, inFields⟩).name := by
        rw [isField]
        rfl
      have held := lookupEntry_of_mem _ _ (members.get ⟨index, inMembers⟩).2.toRich names
        (List.mem_map_of_mem (f := fun member : Text × UserValue => (member.1, member.2.toRich))
          (List.get_mem members ⟨index, inMembers⟩))
      rw [richMember, ← memberName, held] at isRich
      cases isRich
      obtain ⟨received, stable⟩ := (stable_struct_iff fields).mp stable _
        (List.get_mem fields ⟨index, inFields⟩)
      exact ⟨memberName, received, ih _ (List.get_mem members ⟨index, inMembers⟩) _
        ((membersWellFormed_iff members).mp inner _ (List.get_mem members ⟨index, inMembers⟩))
        found stable _ converts⟩
  | bigint value =>
      intro type _ inferred _ cell converts
      cases inferred
      refine ⟨rfl, ?_⟩
      simp only [UserValue.toRich, richToCanonical, isRichNull, Bool.false_eq_true, if_false,
        scalarToCanonical, checkInteger] at converts
      split at converts
      · rename_i inside
        simp [UserValue.toRich, Rich.kept, Rich.toValue, canonicalToRich, isCanonicalNull,
          scalarToRich, scalarToCanonical, checkInteger, Rich.ofValue, inside]
      · cases converts
  | null =>
      intro type _ inferred _ _ _
      cases inferred
      exact carries_null dateText _ .null
  | _ =>
      intro type _ inferred _ _ _
      cases inferred
      exact ⟨rfl, rfl⟩

private theorem ofRich_kept_object (members : List (Text × UserValue))
    (plain : text "__proto__" ∉ members.map Prod.fst) :
    UserValue.ofRich (UserValue.object members).toRich.kept =
      .object (members.map fun member => (member.1, UserValue.ofRich member.2.toRich.kept)) := by
  rw [UserValue.toRich, toRichMembers_map, Rich.kept, keptEntries_map, List.map_map,
    UserValue.ofRich, ofRichMembers_map _ (by rwa [List.map_map]), List.map_map]
  rfl

/-! ## Texts that UTF-8 keeps -/

private theorem elementsTextKept_iff (elements : List UserValue) :
    ElementsTextKept elements ↔ ∀ element ∈ elements, TextKept element := by
  induction elements with
  | nil => exact iff_of_true trivial nofun
  | cons element rest ih => rw [ElementsTextKept, ih, List.forall_mem_cons]

theorem membersTextKept_iff (members : List (Text × UserValue)) :
    MembersTextKept members ↔ ∀ member ∈ members, FitsText member.1 ∧ TextKept member.2 := by
  induction members with
  | nil => exact iff_of_true trivial nofun
  | cons member rest ih => rw [MembersTextKept, ih, List.forall_mem_cons, and_assoc]

/-- Where UTF-8 keeps the texts, the names arrive and the value comes back. -/
private theorem textKept_gives (value : UserValue) (portable : Portable value) :
    TextKept value → UserValue.ofRich value.toRich.kept = value ∧
      ∀ type, inferFieldType value = .ok type → Stable type := by
  induction portable with
  | array elements each uniform ih =>
      intro kept
      have kept := (elementsTextKept_iff elements).mp kept
      constructor
      · simp only [UserValue.toRich, toRichElements_map, Rich.kept, keptElements_map,
          UserValue.ofRich, ofRichElements_map, List.map_map, UserValue.array.injEq]
        refine (List.map_congr_left fun element member => ?_).trans (List.map_id elements)
        exact (ih element member (kept element member)).1
      · intro type inferred
        obtain ⟨elementType, made, rfl⟩ := inferFieldType_array elements type inferred
        refine stable_list elementType ?_
        rcases (inferElementType_none elements elementType made).1 with
          ⟨element, member, _, found⟩ | rfl
        · exact (ih element member (kept element member)).2 elementType found
        · rfl
  | object members plain each ih =>
      intro kept
      have kept := (membersTextKept_iff members).mp kept
      constructor
      · rw [ofRich_kept_object members plain, UserValue.object.injEq]
        refine (List.map_congr_left fun member isMember => ?_).trans (List.map_id members)
        exact Prod.ext rfl (ih member isMember (kept member isMember).2).1
      · intro type inferred
        obtain ⟨fields, made, rfl⟩ := inferFieldType_object members type inferred
        refine (stable_struct_iff fields).mpr fun field isField => ?_
        obtain ⟨index, isField⟩ := List.mem_iff_getElem?.mp isField
        obtain ⟨member, isMember, isStateField, found⟩ :=
          forall₂_getElem? (inferFields_ok members fields made).flip index field isField
        have isMember := List.mem_of_getElem? isMember
        have memberName : member.1 = field.name := by rw [isStateField]; rfl
        exact ⟨memberName ▸ (kept member isMember).1,
          (ih member isMember (kept member isMember).2).2 field.type found⟩
  | string value =>
      intro kept
      refine ⟨?_, fun type inferred => ?_⟩
      · exact congrArg UserValue.string kept
      · cases inferred
        rfl
  | _ => exact fun _ => ⟨rfl, fun type inferred => by cases inferred; rfl⟩

/-- A value that comes back under names that arrive has texts that UTF-8 keeps. -/
private theorem textKept_of_kept (value : UserValue) (portable : Portable value) :
    ∀ type, inferFieldType value = .ok type → Stable type →
      UserValue.ofRich value.toRich.kept = value → TextKept value := by
  induction portable with
  | array elements each uniform ih =>
      intro type inferred stable same
      obtain ⟨elementType, made, rfl⟩ := inferFieldType_array elements type inferred
      simp only [UserValue.toRich, toRichElements_map, Rich.kept, keptElements_map,
        UserValue.ofRich, ofRichElements_map, List.map_map, UserValue.array.injEq] at same
      refine (elementsTextKept_iff elements).mpr fun element member => ?_
      have kept := List.map_inj_left.mp (same.trans (List.map_id elements).symm) element member
      cases nullish : element.isNullish with
      | true => cases element <;> first | exact trivial | cases nullish
      | false =>
          exact ih element member elementType
            (elementTypes elements each uniform elementType made element member nullish)
            (stable_of_list _ stable) kept
  | object members plain each ih =>
      intro type inferred stable same
      obtain ⟨fields, made, rfl⟩ := inferFieldType_object members type inferred
      rw [ofRich_kept_object members plain, UserValue.object.injEq] at same
      refine (membersTextKept_iff members).mpr fun member isMember => ?_
      have kept := List.map_inj_left.mp (same.trans (List.map_id members).symm) member isMember
      obtain ⟨index, isHere⟩ := List.mem_iff_getElem?.mp isMember
      obtain ⟨field, isField, isStateField, found⟩ :=
        forall₂_getElem? (inferFields_ok members fields made) index member isHere
      obtain ⟨received, fieldStable⟩ := (stable_struct_iff fields).mp stable field
        (List.mem_of_getElem? isField)
      have memberName : field.name = member.1 := by rw [isStateField]; rfl
      rw [memberName] at received
      exact ⟨received, ih member isMember field.type found fieldStable (congrArg Prod.snd kept)⟩
  | string value =>
      intro type inferred stable same
      exact UserValue.string.inj same
  | _ => exact fun _ _ _ _ => trivial

/-! ## The batch of a state -/

variable {library : VectorLibrary} (nested : Nested.NestedVectors library) (ipc : IpcLibrary)

private theorem memberOf_yields (batch : Batch) (row : Nat) (field : Field)
    (userType : UserType field.type) (rich : Rich)
    (read : memberOf dateText batch row field = .ok rich) :
    ∃ cell, canonicalToRich dateText field.type cell = .ok rich := by
  rw [memberOf] at read
  split at read
  · cases read
    exact ⟨.null, (carries_null dateText field.type userType).converts⟩
  · exact ⟨_, read⟩

/-- Each member of a row comes from a cell of its field's type. -/
private theorem rowMembers_yield (batch : Batch) (row : Nat) (fields : List Field)
    (userTypes : ∀ field ∈ fields, UserType field.type) (values : List (Text × Rich))
    (members : RowMembers dateText batch row fields values) :
    List.Forall₂ (fun field value => value.1 = field.name ∧
      ∃ cell, canonicalToRich dateText field.type cell = .ok value.2) fields values := by
  induction members with
  | nil => exact .nil
  | @cons field _ _ _ here _ ih =>
      exact .cons ⟨here.1, memberOf_yields dateText batch row field
        (userTypes field List.mem_cons_self) _ here.2⟩
        (ih fun other member => userTypes other (List.mem_cons_of_mem _ member))

private theorem columnCells_ok (type : DataType) (value : Rich) (column : Column)
    (made : Nested.columnCells nested dateText type [value] = .ok column) :
    ∃ cell data, richToCanonical dateText type value = .ok cell ∧
      Nested.buildColumnData nested type [cell] = .ok data ∧
      column = [Nested.readCanonicalValue library type data 0] := by
  obtain ⟨cells, canonical, made⟩ := except_bind_ok _ _ _ made
  obtain ⟨data, built, made⟩ := except_bind_ok _ _ _ made
  cases made
  have canonical := (except_mapM_iff _ _ _).mp ((except_mapError_ok _ _ _).mp canonical)
  cases canonical with
  | cons here rest =>
      cases rest
      exact ⟨_, data, here, built, rfl⟩

private theorem stateBatch_ok (members : List (Text × UserValue))
    (distinct : (members.map Prod.fst).Nodup) (batch : Batch)
    (made : stateBatch nested dateText members = .ok batch) :
    inferFields members = .ok batch.schema.fields ∧
      (batch.numRows = 0 ↔ members = []) ∧
      List.Forall₂ (fun member column => ∃ type, inferFieldType member.2 = .ok type ∧
        Nested.columnCells nested dateText type [member.2.toRich] = .ok column)
        members batch.columns := by
  obtain ⟨fields, inferred, made⟩ := except_bind_ok _ _ _ made
  obtain ⟨columns, cells, made⟩ := except_bind_ok _ _ _ made
  cases made
  have inferredEach := inferFields_ok members fields inferred
  have names : ((members.map fun member => (member.1, [member.2.toRich])).map
      Prod.fst).Nodup := by
    rw [List.map_map]
    exact distinct
  have found : ∀ (index : Nat) member field, members[index]? = some member →
      fields[index]? = some field → lookupEntry (members.map fun member =>
        (member.1, [member.2.toRich])) field.name = some [member.2.toRich] := by
    intro index member field isMember isField
    obtain ⟨other, isOther, isStateField, _⟩ := forall₂_getElem? inferredEach index member isMember
    rw [isField] at isOther
    cases isOther
    have memberName : field.name = member.1 := by rw [isStateField]; rfl
    rw [memberName]
    exact lookupEntry_of_mem _ _ _ names (List.mem_map_of_mem
      (f := fun member : Text × UserValue => (member.1, [member.2.toRich]))
      (List.mem_of_getElem? isMember))
  refine ⟨inferred, ?_, ?_⟩
  · cases inferredEach with
    | nil => exact iff_of_true rfl rfl
    | @cons member field _ _ here _ =>
        refine iff_of_false ?_ nofun
        have first := found 0 member field rfl rfl
        simp only [List.head?_cons, Option.bind_some, first, Option.map_some, Option.getD_some,
          List.length_singleton]
        decide
  · obtain ⟨lengths, eachMember⟩ := List.forall₂_iff_get.mp inferredEach
    obtain ⟨cellLengths, eachCell⟩ := List.forall₂_iff_get.mp ((except_mapM_iff _ _ _).mp cells)
    refine List.forall₂_iff_get.mpr ⟨lengths.trans cellLengths, fun index inMembers inColumns => ?_⟩
    have inFields : index < fields.length := by rwa [← lengths]
    have column := eachCell index inFields inColumns
    rw [found index _ (fields.get ⟨index, inFields⟩) (List.getElem?_eq_getElem inMembers)
      (List.getElem?_eq_getElem inFields)] at column
    exact ⟨_, (eachMember index inMembers inFields).2, column⟩

private theorem fields_userType (members : List (Text × UserValue)) (fields : List Field)
    (inferred : inferFields members = .ok fields) : ∀ field ∈ fields, UserType field.type := by
  intro field member
  obtain ⟨index, isField⟩ := List.mem_iff_getElem?.mp member
  obtain ⟨source, _, _, found⟩ :=
    forall₂_getElem? (inferFields_ok members fields inferred).flip index field isField
  exact inferFieldType_userType source.2 field.type found

/-- The one cell of each column, as the reader of the stream sees it. -/
private theorem decoded_columns (members : List (Text × UserValue))
    (portable : Portable (.object members)) (wellFormed : WellFormed (.object members))
    (batch : Batch) (made : stateBatch nested dateText members = .ok batch)
    (stable : Stable (.struct batch.schema.fields)) (index : Nat) (member : Text × UserValue)
    (here : members[index]? = some member) :
    ∃ field, batch.schema.fields[index]? = some field ∧ field.name = member.1 ∧
      (decodedBatch batch).columns[index]? = some [member.2.toRich.kept.toValue] ∧
      canonicalToRich dateText field.type member.2.toRich.kept.toValue =
        .ok member.2.toRich.kept := by
  obtain ⟨distinct, inner⟩ := wellFormed
  obtain ⟨inferred, _, columns⟩ := stateBatch_ok dateText nested members distinct batch made
  obtain ⟨field, isField, isStateField, found⟩ :=
    forall₂_getElem? (inferFields_ok members _ inferred) index member here
  obtain ⟨column, isColumn, type, sameType, cells⟩ := forall₂_getElem? columns index member here
  rw [found] at sameType
  cases sameType
  obtain ⟨cell, data, canonical, built, rfl⟩ := columnCells_ok dateText nested _ _ column cells
  have memberPortable : Portable member.2 := by
    cases portable with
    | object _ _ each => exact each member (List.mem_of_getElem? here)
  have memberWellFormed := (membersWellFormed_iff members).mp inner member
    (List.mem_of_getElem? here)
  have given : Given dateText field.type member.2.toRich cell :=
    ⟨typed_inferred member.2 memberPortable memberWellFormed field.type found, canonical⟩
  have read := givesBack nested dateText field.type [cell] data
    (fun other isOther => .inr ⟨_, List.mem_singleton.mp isOther ▸ given⟩) built 0 _ cell rfl given
  obtain ⟨_, fieldStable⟩ := (stable_struct_iff _).mp stable field (List.mem_of_getElem? isField)
  have carries := carries_kept dateText member.2 memberPortable field.type memberWellFormed found
    fieldStable cell canonical
  refine ⟨field, isField, by rw [isStateField]; rfl, ?_, carries.converts⟩
  have both : (batch.schema.fields.zip batch.columns)[index]? =
      some (field, [Nested.readCanonicalValue library field.type data 0]) :=
    List.getElem?_zip_eq_some.mpr ⟨isField, isColumn⟩
  simp only [decodedBatch, List.getElem?_map, both, Option.map_some, List.map_singleton, read,
    carries.decoded]

/-- A state of the kinds that a token holds comes back under names that arrive, with its texts as
UTF-8 keeps them. -/
theorem deserialize_portable (members : List (Text × UserValue))
    (portable : Portable (.object members)) (wellFormed : WellFormed (.object members))
    (batch : Batch) (made : stateBatch nested dateText members = .ok batch)
    (stable : Stable (.struct batch.schema.fields)) :
    deserializeUserState ipc dateText (some (ipc.serializeBatch batch)) =
      .ok (UserValue.ofRich (UserValue.object members).toRich.kept) := by
  obtain ⟨inferred, rows, columns⟩ :=
    stateBatch_ok dateText nested members wellFormed.1 batch made
  have userTypes := fields_userType members _ inferred
  have fieldsKept : decodedFields batch.schema.fields = batch.schema.fields :=
    DataType.struct.inj stable
  have inferredEach := inferFields_ok members _ inferred
  have lengths := inferredEach.length_eq
  have names := names_eq batch.schema.fields members inferredEach.flip fun field member related => by
    rw [related.1]
    rfl
  rw [deserializeUserState, ipc.received batch userTypes, except_ok_bind]
  have values : RowMembers dateText (decodedBatch batch) 0 batch.schema.fields
      (members.map fun member => (member.1, member.2.toRich.kept)) := by
    rw [RowMembers, List.forall₂_map_right_iff]
    refine List.forall₂_iff_get.mpr ⟨lengths.symm, fun index inFields inMembers => ?_⟩
    obtain ⟨field, isField, named, isColumn, converts⟩ := decoded_columns dateText nested members
      portable wellFormed batch made stable index _ (List.getElem?_eq_getElem inMembers)
    have same := isField.symm.trans (List.getElem?_eq_getElem inFields)
    cases same
    have child := getChild_nodup (decodedBatch batch) (by
      rw [decodedBatch, fieldsKept, ← names]
      exact wellFormed.1) index _ (by
        rw [decodedBatch, fieldsKept]
        exact isField)
    refine ⟨named.symm, ?_⟩
    rw [memberOf, List.get_eq_getElem, child.trans isColumn]
    exact converts
  have distinct : ((members.map fun member => (member.1, member.2.toRich.kept)).map
      Prod.fst).Nodup := by
    rw [List.map_map]
    exact wellFormed.1
  have whole : UserValue.ofRich (UserValue.object members).toRich.kept =
      .object (UserValue.ofRichMembers
        (members.map fun member => (member.1, member.2.toRich.kept))) := by
    simp only [UserValue.toRich, toRichMembers_map, Rich.kept, keptEntries_map, UserValue.ofRich,
      List.map_map]
    rfl
  rw [whole]
  by_cases none : members = []
  · have noRows : (decodedBatch batch).numRows = 0 := rows.mpr none
    subst none
    have noFields : (decodedBatch batch).schema.fields = [] := by
      rw [decodedBatch, fieldsKept]
      exact List.length_eq_zero_iff.mp lengths.symm
    rw [if_pos noRows, noFields]
    rfl
  · have someRows : ¬(decodedBatch batch).numRows = 0 := fun noRows => none (rows.mp noRows)
    have fields : (decodedBatch batch).schema.fields = batch.schema.fields := by
      rw [decodedBatch, fieldsKept]
    have read := (rowAt_iff dateText (decodedBatch batch) 0 _).mpr ⟨_, fields ▸ values, rfl⟩
    rw [if_neg someRows, read, objectOf, OrderedMap.entries_ofEntries _ distinct]
    rfl

/-- The states that survive: null, and the plain objects that a token holds, which have no member
named `__proto__` at any depth. -/
def Survives (state : UserValue) : Prop :=
  state = .null ∨ (∃ members, state = .object members) ∧ Portable state ∧ TextKept state

private theorem survives_of_read (result : List (Text × Rich))
    (wellFormed : WellFormed (.object (UserValue.ofRichMembers result)))
    (batch : Batch)
    (made : stateBatch nested dateText (UserValue.ofRichMembers result) = .ok batch)
    (survived : deserializeUserState ipc dateText (some (ipc.serializeBatch batch)) =
      .ok (.object (UserValue.ofRichMembers result)))
    (row : rowAt dateText (decodedBatch batch) 0 = .ok result) :
    Survives (.object (UserValue.ofRichMembers result)) := by
  obtain ⟨inferred, _, _⟩ := stateBatch_ok dateText nested _ wellFormed.1 batch made
  have userTypes := fields_userType _ _ inferred
  have decodedTypes : ∀ field ∈ decodedFields batch.schema.fields, UserType field.type := by
    intro field member
    rw [decodedFields_map] at member
    obtain ⟨source, isSource, rfl⟩ := List.mem_map.mp member
    exact decodedType_userType _ (userTypes source isSource)
  obtain ⟨values, rowMembers, same⟩ := (rowAt_iff dateText (decodedBatch batch) 0 result).mp row
  have yields := rowMembers_yield dateText (decodedBatch batch) 0
    (decodedFields batch.schema.fields) decodedTypes values rowMembers
  rw [objectOf] at same
  have portable : Portable (.object (UserValue.ofRichMembers result)) := by
    refine .object _ (plain_ofRichMembers result) fun member isMember => ?_
    rw [ofRichMembers_filter] at isMember
    obtain ⟨entry, isEntry, rfl⟩ := List.mem_map.mp isMember
    have isEntry := List.mem_of_mem_filter isEntry
    rw [same] at isEntry
    obtain ⟨index, isHere⟩ := List.mem_iff_getElem?.mp (OrderedMap.mem_ofEntries _ entry isEntry)
    obtain ⟨field, isField, _, cell, converts⟩ := forall₂_getElem? yields.flip index entry isHere
    exact (yielded dateText field.type (decodedTypes field (List.mem_of_getElem? isField))).1 cell
      entry.2 converts
  have stable : Stable (.struct batch.schema.fields) := by
    refine stable_of_members dateText _ _ inferred values yields (by rw [same]) ?_
    intro member isMember type found cell rich converts isRich
    cases portable with
    | object _ _ each =>
        exact stable_of_yielded dateText member.2 (each member isMember) type found cell rich
          converts isRich
  have back := deserialize_portable dateText nested ipc _ portable wellFormed batch made stable
  rw [survived] at back
  refine .inr ⟨⟨_, rfl⟩, portable, textKept_of_kept _ portable (.struct batch.schema.fields) ?_
    stable (Except.ok.inj back).symm⟩
  rw [inferFieldType, inferred, except_ok_bind]

theorem survives_of_deserialized (state : UserValue) (wellFormed : WellFormed state)
    (stream : Option ipc.Stream)
    (serialized : serializeUserState nested ipc dateText state = .ok stream)
    (survived : deserializeUserState ipc dateText stream = .ok state) : Survives state := by
  rw [serializeUserState] at serialized
  split at serialized
  · cases serialized
    cases survived
    exact .inl rfl
  · rename_i filled
    obtain ⟨batch, made, serialized⟩ := except_bind_ok _ _ _ serialized
    cases serialized
    have userTypes : ∀ field ∈ batch.schema.fields, UserType field.type := by
      obtain ⟨fields, inferred, made⟩ := except_bind_ok _ _ _ made
      obtain ⟨columns, _, made⟩ := except_bind_ok _ _ _ made
      cases made
      exact fields_userType _ fields inferred
    have read := survived
    rw [deserializeUserState, ipc.received batch userTypes, except_ok_bind] at read
    split at read
    · split at read
      · cases read
        exact .inr ⟨⟨[], rfl⟩, .object [] (by simp) (by simp), trivial⟩
      · cases read
        exact absurd rfl filled
    · obtain ⟨result, row, read⟩ := except_bind_ok _ _ _ read
      cases read
      exact survives_of_read dateText nested ipc result wellFormed batch made survived
        ((except_mapError_ok _ _ _).mp row)

theorem deserialized_of_survives (state : UserValue) (wellFormed : WellFormed state)
    (stream : Option ipc.Stream)
    (serialized : serializeUserState nested ipc dateText state = .ok stream)
    (survives : Survives state) : deserializeUserState ipc dateText stream = .ok state := by
  rcases survives with rfl | ⟨⟨members, rfl⟩, portable, kept⟩
  · cases serialized
    rfl
  · obtain ⟨batch, made, serialized⟩ := except_bind_ok _ _ _ serialized
    cases serialized
    obtain ⟨inferred, _, _⟩ := stateBatch_ok dateText nested members wellFormed.1 batch made
    obtain ⟨same, stable⟩ := textKept_gives _ portable kept
    have type : inferFieldType (.object members) = .ok (.struct batch.schema.fields) := by
      rw [inferFieldType, inferred, except_ok_bind]
    rw [deserialize_portable dateText nested ipc members portable wellFormed batch made
      (stable _ type), same]

/-- A state comes back from its token exactly when it is null or a plain object with values of the
kinds a token holds, texts that UTF-8 keeps, and arrays of objects with the same names. -/
theorem user_state_survives_iff (state : UserValue) (wellFormed : WellFormed state)
    (stream : Option ipc.Stream)
    (serialized : serializeUserState nested ipc dateText state = .ok stream) :
    deserializeUserState ipc dateText stream = .ok state ↔ Survives state :=
  ⟨survives_of_deserialized dateText nested ipc state wellFormed stream serialized,
    deserialized_of_survives dateText nested ipc state wellFormed stream serialized⟩

end

/-! ## Samples -/

/-- A stream that is its batch. -/
def sampleIpc : IpcLibrary where
  Stream := Batch
  serializeBatch := id
  deserializeBatch := fun batch => .ok (decodedBatch batch)
  received := fun _ _ => rfl

/-- A state on its way through a token. -/
def restored (state : UserValue) : Except Text UserValue := do
  let stream ← serializeUserState Nested.plainVectors sampleIpc (fun _ => []) state
  deserializeUserState sampleIpc (fun _ => []) stream

theorem user_state_survives_sample :
    ∃ stream, serializeUserState Nested.plainVectors sampleIpc (fun _ => [])
        (.object [(text "done", .bool true)]) = .ok stream ∧
      deserializeUserState sampleIpc (fun _ => []) stream =
        .ok (.object [(text "done", .bool true)]) := by
  have wellFormed : WellFormed (.object [(text "done", .bool true)]) :=
    ⟨by simp, trivial, trivial⟩
  refine ⟨_, rfl, (user_state_survives_iff (fun _ => []) Nested.plainVectors sampleIpc _ wellFormed _
    rfl).mpr (.inr ⟨⟨_, rfl⟩, .object _ (by decide) fun member isMember => ?_, ?_⟩)⟩
  · rw [List.mem_singleton.mp isMember]
    exact .bool true
  · exact ⟨by rw [FitsText]; decide +kernel, trivial, trivial⟩

/-- Two rows whose fields have different names and one signature. -/
def ambiguousRows : UserValue :=
  .object [(text "rows", .array [
    .object [(text "a", .bool true), (text "b", .bool true)],
    .object [(text "a:6,b", .bool true)]])]

/-- `undefined` comes back as null, an array as an object, a member named `__proto__` not at all, and
an element whose one name reads like the two fields of the element before it loses its value. -/
theorem states_altered :
    (restored (.object [(text "next", .undefined)]) = .ok (.object [(text "next", .null)]) ∧
      restored (.object [(text "next", .undefined)]) ≠ .ok (.object [(text "next", .undefined)])) ∧
    (restored (.array [.bool true]) = .ok (.object [(text "0", .bool true)]) ∧
      restored (.array [.bool true]) ≠ .ok (.array [.bool true])) ∧
    (restored (.object [(text "__proto__", .bool true)]) = .ok (.object []) ∧
      restored (.object [(text "__proto__", .bool true)]) ≠
        .ok (.object [(text "__proto__", .bool true)])) ∧
    (restored ambiguousRows = .ok (.object [(text "rows", .array [
        .object [(text "a", .bool true), (text "b", .bool true)],
        .object [(text "a", .null), (text "b", .null)]])]) ∧
      restored ambiguousRows ≠ .ok ambiguousRows) := by
  have unset : restored (.object [(text "next", .undefined)]) =
      .ok (.object [(text "next", .null)]) := rfl
  have listed : restored (.array [.bool true]) = .ok (.object [(text "0", .bool true)]) := rfl
  have inherited : restored (.object [(text "__proto__", .bool true)]) = .ok (.object []) := rfl
  have rows : restored ambiguousRows = .ok (.object [(text "rows", .array [
      .object [(text "a", .bool true), (text "b", .bool true)],
      .object [(text "a", .null), (text "b", .null)]])]) := rfl
  refine ⟨⟨unset, ?_⟩, ⟨listed, ?_⟩, ⟨inherited, ?_⟩, rows, ?_⟩
  · rw [unset]
    simp
  · rw [listed]
    simp
  · rw [inherited]
    simp
  · rw [rows]
    simp [ambiguousRows]

end VgiWorker.Protocol.UserState
