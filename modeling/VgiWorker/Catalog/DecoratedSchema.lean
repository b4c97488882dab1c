import VgiWorker.Data.CommutingRuns
import VgiWorker.Catalog.ColumnDecorations

/-!
# Decorated schemas

What decorating a schema's columns changes, and what it leaves alone.
-/

set_option autoImplicit false

namespace VgiWorker.Catalog.Decorations

open VgiWorker.Js VgiWorker.Arrow

/-- The same field, the order of its metadata entries aside. -/
structure SameField (left right : Field) : Prop where
  name : left.name = right.name
  type : left.type = right.type
  nullable : left.nullable = right.nullable
  entries : ∀ key, left.metadata.get? key = right.metadata.get? key

structure SameSchema (left right : Schema) : Prop where
  fields : List.Forall₂ SameField left.fields right.fields
  metadata : left.metadata = right.metadata

theorem SameField.refl (field : Field) : SameField field field :=
  ⟨rfl, rfl, rfl, fun _ => rfl⟩

theorem SameField.trans (first second third : Field) (here : SameField first second)
    (later : SameField second third) : SameField first third :=
  ⟨here.name.trans later.name, here.type.trans later.type, here.nullable.trans later.nullable,
    fun key => (here.entries key).trans (later.entries key)⟩

private theorem sameFields_refl (fields : List Field) : List.Forall₂ SameField fields fields := by
  induction fields with
  | nil => exact .nil
  | cons field rest ih => exact .cons (.refl field) ih

private theorem sameFields_symm (left right : List Field)
    (same : List.Forall₂ SameField left right) : List.Forall₂ SameField right left := by
  induction same with
  | nil => exact .nil
  | cons here later ih =>
      exact .cons ⟨here.name.symm, here.type.symm, here.nullable.symm,
        fun key => (here.entries key).symm⟩ ih

private theorem sameFields_trans (first second third : List Field)
    (here : List.Forall₂ SameField first second) (later : List.Forall₂ SameField second third) :
    List.Forall₂ SameField first third := by
  induction here generalizing third with
  | nil => exact later
  | cons head rest ih =>
      cases later with
      | cons next others => exact .cons (SameField.trans _ _ _ head next) (ih _ others)

theorem sameSchema_equivalence : Equivalence SameSchema where
  refl schema := ⟨sameFields_refl schema.fields, rfl⟩
  symm same := ⟨sameFields_symm _ _ same.fields, same.metadata.symm⟩
  trans here later :=
    ⟨sameFields_trans _ _ _ here.fields later.fields, here.metadata.trans later.metadata⟩

private theorem sameFields_getElem? (left right : List Field)
    (same : List.Forall₂ SameField left right) (index : Nat) (field : Field)
    (here : left[index]? = some field) :
    ∃ other, right[index]? = some other ∧ SameField field other := by
  induction same generalizing index with
  | nil => cases here
  | cons head rest ih =>
      cases index with
      | zero =>
          cases here
          exact ⟨_, rfl, head⟩
      | succ index => exact ih index here

/-! ## The named column -/

/-- The first field of a name. -/
def columnOf (fields : List Field) (column : Text) : Option Field :=
  fields.find? fun field => field.name = column

theorem targetOf_names (left right : List Field)
    (same : left.map (·.name) = right.map (·.name)) (column : Text) :
    targetOf left column = targetOf right column := by
  have byName (fields : List Field) :
      targetOf fields column = (fields.map (·.name)).findIdx? fun name => name = column := by
    rw [List.findIdx?_map]
    rfl
  rw [byName, byName, same]

theorem targetOf_some (fields : List Field) (column : Text) (index : Nat)
    (target : targetOf fields column = some index) :
    ∃ field, fields[index]? = some field ∧ field.name = column ∧
      columnOf fields column = some field := by
  induction fields generalizing index with
  | nil => cases target
  | cons first rest ih =>
      rw [targetOf, List.findIdx?_cons] at target
      by_cases named : first.name = column
      · rw [if_pos (decide_eq_true named)] at target
        cases target
        exact ⟨first, rfl, named, by simp [columnOf, named]⟩
      · rw [if_neg (by simpa using named)] at target
        obtain ⟨later, found, rfl⟩ := Option.map_eq_some_iff.mp target
        obtain ⟨field, here, name, column⟩ := ih later found
        exact ⟨field, here, name, by simpa [columnOf, named] using column⟩

theorem targetOf_none (fields : List Field) (column : Text)
    (target : targetOf fields column = none) : columnOf fields column = none := by
  rw [targetOf, List.findIdx?_eq_none_iff] at target
  rw [columnOf, List.find?_eq_none]
  intro field member
  simp [target field member]

/-- The schema with entries set on one of its fields. -/
def edit (index : Nat) (entries : List (Text × Text)) (rebuilt : Metadata → Metadata)
    (schema : Schema) : Schema :=
  ⟨schema.fields.modify index (withEntries · entries), rebuilt schema.metadata⟩

/-- What a pass does to the schema, where it does not refuse. -/
def plan (schema : Schema) (change : Change) : Except Text (Schema → Schema) :=
  match targetOf schema.fields change.column with
  | none => change.missing.map fun _ => id
  | some index =>
      match schema.fields[index]? with
      | none => .ok id
      | some field =>
          (change.entries field).map fun entries => edit index entries change.rebuilt

theorem plan_missing (schema : Schema) (change : Change)
    (target : targetOf schema.fields change.column = none) :
    plan schema change = change.missing.map fun _ => id := by
  rw [plan, target]

theorem plan_named (schema : Schema) (change : Change) (index : Nat) (field : Field)
    (target : targetOf schema.fields change.column = some index)
    (here : schema.fields[index]? = some field) :
    plan schema change =
      (change.entries field).map fun entries => edit index entries change.rebuilt := by
  rw [plan, target]
  dsimp only
  rw [here]

theorem applyChange_plan (schema : Schema) (change : Change) :
    applyChange schema change = (plan schema change).map (· schema) := by
  cases target : targetOf schema.fields change.column with
  | none =>
      rw [applyChange, plan_missing schema change target, target]
      cases change.missing with
      | error failure => rfl
      | ok done => rfl
  | some index =>
      obtain ⟨field, here, _⟩ := targetOf_some _ _ _ target
      rw [applyChange, plan_named schema change index field target here, target]
      dsimp only
      rw [here]
      dsimp only
      cases change.entries field with
      | error failure => rfl
      | ok entries =>
          have same : schema.fields.modify index (withEntries · entries) =
              schema.fields.set index (withEntries field entries) := by
            rw [List.modify_eq_set_getElem?, here]
            rfl
          change Except.ok _ = Except.ok (edit index entries change.rebuilt schema)
          rw [edit, same]

/-- A pass leaves the schema as it is or edits the named column. -/
theorem plan_cases (schema : Schema) (change : Change) (perform : Schema → Schema)
    (planned : plan schema change = .ok perform) :
    (targetOf schema.fields change.column = none ∧ perform = id) ∨
      ∃ index field entries, targetOf schema.fields change.column = some index ∧
        schema.fields[index]? = some field ∧ change.entries field = .ok entries ∧
          perform = edit index entries change.rebuilt := by
  cases target : targetOf schema.fields change.column with
  | none =>
      rw [plan_missing schema change target] at planned
      cases missing : change.missing with
      | error failure => simp [missing, Except.map] at planned
      | ok done =>
          rw [missing] at planned
          cases planned
          exact .inl ⟨rfl, rfl⟩
  | some index =>
      obtain ⟨field, here, _⟩ := targetOf_some _ _ _ target
      rw [plan_named schema change index field target here] at planned
      cases made : change.entries field with
      | error failure => simp [made, Except.map] at planned
      | ok entries =>
          rw [made] at planned
          cases planned
          exact .inr ⟨index, field, entries, rfl, here, made, rfl⟩

theorem names_modify (fields : List Field) (index : Nat) (entries : List (Text × Text)) :
    (fields.modify index (withEntries · entries)).map (·.name) = fields.map (·.name) := by
  induction fields generalizing index with
  | nil => cases index <;> rfl
  | cons first rest ih =>
      cases index with
      | zero => rfl
      | succ index => exact congrArg (first.name :: ·) (ih index)

theorem targetOf_edit (index : Nat) (entries : List (Text × Text))
    (rebuilt : Metadata → Metadata) (schema : Schema) (column : Text) :
    targetOf (edit index entries rebuilt schema).fields column =
      targetOf schema.fields column :=
  targetOf_names _ _ (names_modify _ _ _) column

/-! ## What a decoration owns and what it looks at -/

namespace Decoration

/-- The metadata keys that a decoration sets. -/
def Owns : Decoration → Text → Prop
  | .defaults, key => key = defaultExpressionKey ∨ key = legacyDefaultKey
  | .generated, key => key = generatedExpressionKey ∨ key = generationKey
  | .comments, key => key = commentKey

/-- The metadata keys that a decoration's entries depend on. -/
def Watches : Decoration → Text → Prop
  | .defaults, key => key = extensionNameKey ∨ (text "vgi.logical_type.").isPrefixOf key = true
  | .generated, key => key = generatedExpressionKey ∨ key = legacyGeneratedKey
  | .comments, _ => False

theorem owns_apart (first second : Decoration) (differ : first ≠ second) (key : Text)
    (owned : first.Owns key) : ¬second.Owns key ∧ ¬second.Watches key := by
  cases first with
  | defaults =>
      rcases owned with rfl | rfl <;> cases second <;> first
        | exact absurd rfl differ
        | (simp only [Owns, Watches]; decide +kernel)
  | generated =>
      rcases owned with rfl | rfl <;> cases second <;> first
        | exact absurd rfl differ
        | (simp only [Owns, Watches]; decide +kernel)
  | comments =>
      cases owned
      cases second <;> first
        | exact absurd rfl differ
        | (simp only [Owns, Watches]; decide +kernel)

end Decoration

namespace Change

/-- A pass of a decoration: it sets what the decoration owns, as told by what it watches. -/
structure Of (decoration : Decoration) (change : Change) : Prop where
  owns : ∀ field entries, change.entries field = .ok entries →
    ∀ entry ∈ entries, decoration.Owns entry.1
  watches : ∀ left right : Field, left.type = right.type →
    (∀ key, decoration.Watches key → left.metadata.get? key = right.metadata.get? key) →
      change.entries left = change.entries right
  rebuilds : change.rebuilt = id ∨ change.rebuilt = fun _ => .empty

end Change

private theorem has_eq (left right : Metadata) (key : Text)
    (same : left.get? key = right.get? key) : left.has key = right.has key := by
  rw [OrderedMap.has, OrderedMap.has, same]

private theorem any_key_iff (metadata : Metadata) (holds : Text → Bool) :
    metadata.keys.any holds = true ↔
      ∃ key, holds key = true ∧ (metadata.get? key).isSome = true := by
  rw [List.any_eq_true]
  constructor
  · intro ⟨key, member, named⟩
    exact ⟨key, named, (OrderedMap.mem_keys_iff metadata key).mp member⟩
  · intro ⟨key, named, held⟩
    exact ⟨key, (OrderedMap.mem_keys_iff metadata key).mpr held, named⟩

private theorem hasLogicalType_eq (left right : Field)
    (same : ∀ key, Decoration.defaults.Watches key →
      left.metadata.get? key = right.metadata.get? key) :
    hasLogicalType left = hasLogicalType right := by
  rw [Bool.eq_iff_iff, hasLogicalType, hasLogicalType, any_key_iff, any_key_iff]
  refine exists_congr fun key => and_congr_right fun named => ?_
  have watched : Decoration.defaults.Watches key := by
    simpa [Decoration.Watches] using named
  rw [same key watched]

private theorem duckdbPrimitive_eq (left right : Field) (type : left.type = right.type)
    (same : ∀ key, Decoration.defaults.Watches key →
      left.metadata.get? key = right.metadata.get? key) :
    duckdbPrimitive left = duckdbPrimitive right := by
  rw [duckdbPrimitive, duckdbPrimitive, hasLogicalType_eq left right same, type]

section

variable (defaultExpressionMetadata generatedExpressionMetadata :
  Text → List Text → Except Text Text)

private theorem defaultChange_of (owner : List Text) (entry : Text × DefaultValue) :
    (defaultChange defaultExpressionMetadata owner entry).Of .defaults where
  owns field entries made := by
    change defaultEntries defaultExpressionMetadata owner entry.2 field = .ok entries at made
    rw [defaultEntries] at made
    split at made
    · obtain ⟨encoded, _, made⟩ := except_bind_ok _ _ _ made
      cases made
      intro entry member
      cases List.mem_singleton.mp member
      exact .inl rfl
    · cases made
      intro entry member
      cases List.mem_singleton.mp member
      exact .inr rfl
  watches left right type same := by
    change defaultEntries _ _ _ left = defaultEntries _ _ _ right
    rw [defaultEntries, defaultEntries, duckdbPrimitive_eq left right type same]
  rebuilds := .inr rfl

private theorem generatedChange_of (owner : List Text) (table : Text) (entry : Text × Text) :
    (generatedChange generatedExpressionMetadata owner table entry).Of .generated where
  owns field entries made := by
    change generatedEntries generatedExpressionMetadata owner table entry.1 entry.2 field =
      .ok entries at made
    rw [generatedEntries] at made
    split at made
    · cases made
    · obtain ⟨encoded, _, made⟩ := except_bind_ok _ _ _ made
      cases made
      intro entry member
      rcases List.mem_cons.mp member with rfl | member
      · exact .inl rfl
      · cases List.mem_singleton.mp member
        exact .inr rfl
  watches left right type same := by
    change generatedEntries _ _ _ _ _ left = generatedEntries _ _ _ _ _ right
    rw [generatedEntries, generatedEntries,
      has_eq _ _ generatedExpressionKey (same _ (.inl rfl)),
      has_eq _ _ legacyGeneratedKey (same _ (.inr rfl))]
  rebuilds := .inl rfl

private theorem commentChange_of (table : Text) (entry : Text × Text) :
    (commentChange table entry).Of .comments where
  owns field entries made := by
    cases made
    intro entry member
    cases List.mem_singleton.mp member
    rfl
  watches left right type same := rfl
  rebuilds := .inl rfl

theorem changesOf_of (request : Request) (decoration : Decoration) :
    ∀ change ∈ changesOf defaultExpressionMetadata generatedExpressionMetadata request decoration,
      change.Of decoration := by
  intro change member
  cases decoration with
  | defaults =>
      obtain ⟨entry, _, rfl⟩ := List.mem_map.mp member
      exact defaultChange_of _ _ _
  | generated =>
      obtain ⟨entry, _, rfl⟩ := List.mem_map.mp member
      exact generatedChange_of _ _ _ _
  | comments =>
      obtain ⟨entry, _, rfl⟩ := List.mem_map.mp member
      exact commentChange_of _ _

end

/-! ## One pass after the other -/

theorem withEntries_get? (field : Field) (entries : List (Text × Text)) (key : Text) :
    (withEntries field entries).metadata.get? key =
      (OrderedMap.lastOf entries key).or (field.metadata.get? key) :=
  OrderedMap.get?_setAll field.metadata entries key

theorem lastOf_not_owned (decoration : Decoration) (entries : List (Text × Text))
    (owned : ∀ entry ∈ entries, decoration.Owns entry.1) (key : Text)
    (other : ¬decoration.Owns key) : OrderedMap.lastOf entries key = none := by
  induction entries with
  | nil => rfl
  | cons entry rest ih =>
      have differs : entry.1 ≠ key := by
        rintro rfl
        exact other (owned entry List.mem_cons_self)
      rw [OrderedMap.lastOf_cons, ih fun later member => owned later (List.mem_cons_of_mem _ member),
        if_neg differs]
      rfl

private theorem sameFields_modify (left right : List Field)
    (same : List.Forall₂ SameField left right) (index : Nat) (entries : List (Text × Text)) :
    List.Forall₂ SameField (left.modify index (withEntries · entries))
      (right.modify index (withEntries · entries)) := by
  induction same generalizing index with
  | nil => cases index <;> exact .nil
  | cons head rest ih =>
      cases index with
      | zero =>
          refine .cons ⟨head.name, head.type, head.nullable, fun key => ?_⟩ rest
          rw [withEntries_get?, withEntries_get?, head.entries key]
      | succ index => exact .cons head (ih index)

private theorem sameFields_names (left right : List Field)
    (same : List.Forall₂ SameField left right) :
    left.map (·.name) = right.map (·.name) := by
  induction same with
  | nil => rfl
  | cons here later ih => simp [here.name, ih]

private theorem plan_same (decoration : Decoration) (change : Change) (of : change.Of decoration)
    (left right : Schema) (same : SameSchema left right) :
    plan left change = plan right change := by
  have targets := targetOf_names _ _ (sameFields_names _ _ same.fields) change.column
  cases target : targetOf left.fields change.column with
  | none => rw [plan_missing left change target, plan_missing right change (targets ▸ target)]
  | some index =>
      obtain ⟨field, here, _⟩ := targetOf_some _ _ _ target
      obtain ⟨other, there, sameField⟩ := sameFields_getElem? _ _ same.fields index field here
      rw [plan_named left change index field target here,
        plan_named right change index other (targets ▸ target) there,
        of.watches field other sameField.type fun key _ => sameField.entries key]

theorem applyChange_respects (decoration : Decoration) (change : Change)
    (of : change.Of decoration) (left right : Schema) (same : SameSchema left right) :
    Alike SameSchema (applyChange left change) (applyChange right change) := by
  rw [applyChange_plan, applyChange_plan, plan_same decoration change of left right same]
  cases planned : plan right change with
  | error failure => exact .refused failure failure
  | ok perform =>
      refine .done _ _ ?_
      rcases plan_cases right change perform planned with ⟨_, rfl⟩ | ⟨index, _, entries, _, _, _, rfl⟩
      · exact same
      · exact ⟨sameFields_modify _ _ same.fields index entries,
          congrArg change.rebuilt same.metadata⟩

/-- A pass does not change what another plans, unless it is of the same decoration and for
the same column. -/
theorem plan_kept (first second : Decoration) (left right : Change) (leftOf : left.Of first)
    (rightOf : right.Of second) (apart : left.column ≠ right.column ∨ first ≠ second)
    (schema : Schema) (perform : Schema → Schema) (planned : plan schema left = .ok perform) :
    plan (perform schema) right = plan schema right := by
  rcases plan_cases schema left perform planned with
    ⟨_, rfl⟩ | ⟨index, field, entries, target, here, made, rfl⟩
  · rfl
  · cases rightTarget : targetOf schema.fields right.column with
    | none =>
        rw [plan_missing schema right rightTarget,
          plan_missing _ right ((targetOf_edit ..).trans rightTarget)]
    | some other =>
        obtain ⟨there, found, rightName, _⟩ := targetOf_some _ _ _ rightTarget
        obtain ⟨_, sameHere, leftName, _⟩ := targetOf_some _ _ _ target
        obtain rfl := Option.some.inj (here.symm.trans sameHere)
        have target' := (targetOf_edit index entries left.rebuilt schema _).trans rightTarget
        rw [plan_named schema right other there rightTarget found]
        by_cases equal : index = other
        · subst equal
          obtain rfl := Option.some.inj (here.symm.trans found)
          have differ : first ≠ second :=
            apart.resolve_left fun columns => columns (leftName.symm.trans rightName)
          have changed : (edit index entries left.rebuilt schema).fields[index]? =
              some (withEntries field entries) := by
            simp [edit, here]
          rw [plan_named _ right index _ target' changed]
          refine congrArg _ (rightOf.watches (withEntries field entries) field rfl
            fun key watched => ?_)
          have other : ¬first.Owns key := fun owned =>
            (first.owns_apart second differ key owned).2 watched
          rw [withEntries_get?,
            lastOf_not_owned first entries (leftOf.owns field entries made) key other]
          rfl
        · have unmoved : (edit index entries left.rebuilt schema).fields[other]? = some there := by
            simp [edit, equal, found]
          rw [plan_named _ right other there target' unmoved]

private theorem modify_comm (fields : List Field) (i j : Nat) (one two : List (Text × Text))
    (disjoint : i = j → ∀ key, OrderedMap.lastOf one key = none ∨ OrderedMap.lastOf two key = none) :
    List.Forall₂ SameField
      ((fields.modify i (withEntries · one)).modify j (withEntries · two))
      ((fields.modify j (withEntries · two)).modify i (withEntries · one)) := by
  induction fields generalizing i j with
  | nil => cases i <;> cases j <;> exact .nil
  | cons first rest ih =>
      cases i with
      | zero =>
          cases j with
          | zero =>
              refine .cons ⟨rfl, rfl, rfl, fun key => ?_⟩ (sameFields_refl rest)
              simp only [withEntries_get?]
              rcases disjoint rfl key with unset | unset
              · simp [unset]
              · simp [unset]
          | succ j => exact .cons (.refl _) (sameFields_refl _)
      | succ i =>
          cases j with
          | zero => exact .cons (.refl _) (sameFields_refl _)
          | succ j => exact .cons (.refl _) (ih i j fun equal => disjoint (congrArg _ equal))

theorem passes_commute (first second : Decoration) (left right : Change)
    (leftOf : left.Of first) (rightOf : right.Of second)
    (apart : left.column ≠ right.column ∨ first ≠ second) :
    Commute SameSchema applyChange left right := by
  have apart' : right.column ≠ left.column ∨ second ≠ first :=
    apart.imp Ne.symm Ne.symm
  refine commute_of_plans plan applyChange_plan left right
    (plan_kept first second left right leftOf rightOf apart)
    (plan_kept second first right left rightOf leftOf apart') fun schema one two onePlan twoPlan => ?_
  rcases plan_cases schema left one onePlan with
    ⟨_, rfl⟩ | ⟨i, field, entries, target, here, made, rfl⟩
  · exact sameSchema_equivalence.refl _
  · rcases plan_cases schema right two twoPlan with
      ⟨_, rfl⟩ | ⟨j, other, others, rightTarget, there, madeRight, rfl⟩
    · exact sameSchema_equivalence.refl _
    · refine ⟨modify_comm _ i j entries others fun equal key => ?_, ?_⟩
      · subst equal
        obtain ⟨_, foundLeft, leftName, _⟩ := targetOf_some _ _ _ target
        obtain ⟨_, foundRight, rightName, _⟩ := targetOf_some _ _ _ rightTarget
        obtain rfl := Option.some.inj (foundLeft.symm.trans foundRight)
        have differ : first ≠ second :=
          apart.resolve_left fun columns => columns (leftName.symm.trans rightName)
        by_cases owned : first.Owns key
        · exact .inr (lastOf_not_owned second others (rightOf.owns other others madeRight) key
            (first.owns_apart second differ key owned).1)
        · exact .inl (lastOf_not_owned first entries (leftOf.owns field entries made) key owned)
      · rcases leftOf.rebuilds with kept | dropped <;> rcases rightOf.rebuilds with kept' | dropped' <;>
          simp [edit, *]

end VgiWorker.Catalog.Decorations
