import VgiWorker.Catalog.DecoratedSchema

/-!
# Runs of decorations

Defaults, generated columns and comments applied in some order: when that succeeds, what
it changes, that the order does not matter, and when all but the entries that the decorations
own is left as it is.
-/

set_option autoImplicit false

namespace VgiWorker.Catalog.Decorations

open VgiWorker.Js VgiWorker.Arrow

/-- Passes of different decorations, or for different columns. -/
def Separate (left right : Change) : Prop :=
  ∃ first second : Decoration, left.Of first ∧ right.Of second ∧
    (left.column ≠ right.column ∨ first ≠ second)

private instance : Std.Symm Separate where
  symm _ _ separate := by
    obtain ⟨first, second, leftOf, rightOf, apart⟩ := separate
    exact ⟨second, first, rightOf, leftOf, apart.imp Ne.symm Ne.symm⟩

theorem runs_alike (changes others : List Change) (perm : changes.Perm others)
    (separate : changes.Pairwise Separate)
    (of : ∀ change ∈ changes, ∃ decoration, change.Of decoration) (schema : Schema) :
    Alike SameSchema (changes.foldlM applyChange schema) (others.foldlM applyChange schema) := by
  refine foldlM_perm SameSchema applyChange sameSchema_equivalence changes others perm
    (fun change member => ?_) (fun left leftMem right rightMem differ => ?_) schema
  · obtain ⟨decoration, changeOf⟩ := of change member
    exact applyChange_respects decoration change changeOf
  · obtain ⟨first, second, leftOf, rightOf, apart⟩ :=
      separate.forall leftMem rightMem differ
    exact passes_commute first second left right leftOf rightOf apart

theorem run_ok_iff (changes : List Change) (separate : changes.Pairwise Separate)
    (schema : Schema) :
    (∃ result, changes.foldlM applyChange schema = .ok result) ↔
      ∀ change ∈ changes, ∃ perform, plan schema change = .ok perform := by
  refine foldlM_ok_iff plan applyChange applyChange_plan changes (separate.imp ?_) schema
  intro left right ⟨first, second, leftOf, rightOf, apart⟩
  exact plan_kept first second left right leftOf rightOf apart

/-! ## What a run changes -/

/-- Nothing but the metadata of some fields differs, and there only the touched keys. -/
structure Framed (Touches : Nat → Text → Prop) (before after : List Field) : Prop where
  count : after.length = before.length
  fields : ∀ index field other, before[index]? = some field → after[index]? = some other →
    other.name = field.name ∧ other.type = field.type ∧ other.nullable = field.nullable ∧
      ∀ key, other.metadata.get? key ≠ field.metadata.get? key → Touches index key

theorem Framed.refl (Touches : Nat → Text → Prop) (fields : List Field) :
    Framed Touches fields fields where
  count := rfl
  fields index field other here there := by
    obtain rfl := Option.some.inj (here.symm.trans there)
    exact ⟨rfl, rfl, rfl, fun key differs => absurd rfl differs⟩

theorem Framed.trans (Touches : Nat → Text → Prop) (first second third : List Field)
    (here : Framed Touches first second) (later : Framed Touches second third) :
    Framed Touches first third where
  count := later.count.trans here.count
  fields index field other before after := by
    have inBounds : index < second.length := by
      rw [here.count]
      exact (List.getElem?_eq_some_iff.mp before).1
    have between : second[index]? = some second[index] := List.getElem?_eq_getElem inBounds
    obtain ⟨name, type, nullable, touched⟩ := here.fields index _ _ before between
    obtain ⟨nextName, nextType, nextNullable, nextTouched⟩ := later.fields index _ _ between after
    refine ⟨nextName.trans name, nextType.trans type, nextNullable.trans nullable,
      fun key differs => ?_⟩
    by_cases kept : second[index].metadata.get? key = field.metadata.get? key
    · exact nextTouched key (kept ▸ differs)
    · exact touched key kept

theorem lastOf_not_mem (entries : List (Text × Text)) (key : Text)
    (absent : ∀ entry ∈ entries, entry.1 ≠ key) : OrderedMap.lastOf entries key = none := by
  induction entries with
  | nil => rfl
  | cons entry rest ih =>
      rw [OrderedMap.lastOf_cons, ih fun later member => absent later (List.mem_cons_of_mem _ member),
        if_neg (absent entry List.mem_cons_self)]
      rfl

private theorem edit_framed (Touches : Nat → Text → Prop) (index : Nat)
    (entries : List (Text × Text)) (rebuilt : Metadata → Metadata) (schema : Schema)
    (touched : ∀ entry ∈ entries, Touches index entry.1) :
    Framed Touches schema.fields (edit index entries rebuilt schema).fields where
  count := by simp [edit]
  fields place field other here there := by
    by_cases named : index = place
    · subst named
      rw [edit, List.getElem?_modify_eq, here] at there
      cases there
      refine ⟨rfl, rfl, rfl, fun key differs => ?_⟩
      by_contra untouched
      refine differs ?_
      rw [withEntries_get?, lastOf_not_mem]
      · rfl
      · rintro entry member rfl
        exact untouched (touched entry member)
    · simp only [edit, List.getElem?_modify_ne _ _ named, here, Option.some.injEq] at there
      subst there
      exact ⟨rfl, rfl, rfl, fun key differs => absurd rfl differs⟩

theorem applyChange_cases (schema result : Schema) (change : Change)
    (success : applyChange schema change = .ok result) :
    (targetOf schema.fields change.column = none ∧ result = schema) ∨
      ∃ index field entries, targetOf schema.fields change.column = some index ∧
        schema.fields[index]? = some field ∧ change.entries field = .ok entries ∧
          result = edit index entries change.rebuilt schema := by
  rw [applyChange_plan] at success
  cases planned : plan schema change with
  | error failure => simp [planned, Except.map] at success
  | ok perform =>
      rw [planned] at success
      cases success
      rcases plan_cases schema change perform planned with
        ⟨missed, rfl⟩ | ⟨index, field, entries, target, here, made, rfl⟩
      · exact .inl ⟨missed, rfl⟩
      · exact .inr ⟨index, field, entries, target, here, made, rfl⟩

theorem applyChange_targets (schema result : Schema) (change : Change)
    (success : applyChange schema change = .ok result) (column : Text) :
    targetOf result.fields column = targetOf schema.fields column := by
  rcases applyChange_cases schema result change success with
    ⟨_, rfl⟩ | ⟨index, _, entries, _, _, _, rfl⟩
  · rfl
  · exact targetOf_edit index entries change.rebuilt schema column

/-- A successful run touches what its passes set on the columns they name. -/
theorem run_framed (Touches : Nat → Text → Prop) (changes : List Change) (schema result : Schema)
    (touched : ∀ change ∈ changes, ∀ index field entries,
      targetOf schema.fields change.column = some index → change.entries field = .ok entries →
        ∀ entry ∈ entries, Touches index entry.1)
    (success : changes.foldlM applyChange schema = .ok result) :
    Framed Touches schema.fields result.fields := by
  induction changes generalizing schema with
  | nil =>
      cases success
      exact .refl Touches _
  | cons change rest ih =>
      obtain ⟨next, here, later⟩ := except_bind_ok _ _ _ success
      have framed : Framed Touches next.fields result.fields := by
        refine ih next (fun other member index field entries target => ?_) later
        rw [applyChange_targets schema next change here] at target
        exact touched other (List.mem_cons_of_mem _ member) index field entries target
      rcases applyChange_cases schema next change here with
        ⟨_, rfl⟩ | ⟨index, field, entries, target, _, made, rfl⟩
      · exact framed
      · have edited := edit_framed Touches index entries change.rebuilt schema
          (touched change List.mem_cons_self index field entries target made)
        exact Framed.trans Touches _ _ _ edited framed

/-! ## The metadata of the schema -/

theorem run_metadata_kept (changes : List Change) (schema result : Schema)
    (keeps : ∀ change ∈ changes, targetOf schema.fields change.column ≠ none →
      change.rebuilt = id)
    (success : changes.foldlM applyChange schema = .ok result) :
    result.metadata = schema.metadata := by
  induction changes generalizing schema with
  | nil =>
      cases success
      rfl
  | cons change rest ih =>
      obtain ⟨next, here, later⟩ := except_bind_ok _ _ _ success
      have kept : result.metadata = next.metadata := by
        refine ih next (fun other member hit => ?_) later
        rw [applyChange_targets schema next change here] at hit
        exact keeps other (List.mem_cons_of_mem _ member) hit
      rcases applyChange_cases schema next change here with
        ⟨_, rfl⟩ | ⟨index, field, entries, target, _, _, rfl⟩
      · exact kept
      · have same : change.rebuilt = id :=
          keeps change List.mem_cons_self (by simp [target])
        exact kept.trans (congrFun same schema.metadata)

theorem run_metadata_empty (changes : List Change) (schema result : Schema)
    (of : ∀ change ∈ changes, ∃ decoration, change.Of decoration)
    (empty : schema.metadata = .empty) (success : changes.foldlM applyChange schema = .ok result) :
    result.metadata = .empty := by
  induction changes generalizing schema with
  | nil =>
      cases success
      exact empty
  | cons change rest ih =>
      obtain ⟨next, here, later⟩ := except_bind_ok _ _ _ success
      refine ih next (fun other member => of other (List.mem_cons_of_mem _ member)) ?_ later
      obtain ⟨decoration, changeOf⟩ := of change List.mem_cons_self
      rcases applyChange_cases schema next change here with
        ⟨_, rfl⟩ | ⟨index, field, entries, _, _, _, rfl⟩
      · exact empty
      · rcases changeOf.rebuilds with same | dropped
        · exact (congrFun same schema.metadata).trans empty
        · exact congrFun dropped schema.metadata

/-- The metadata is lost to a pass that names a column and rebuilds the schema without it. -/
theorem run_metadata_dropped (changes : List Change) (schema result : Schema)
    (of : ∀ change ∈ changes, ∃ decoration, change.Of decoration) (dropping : Change)
    (member : dropping ∈ changes) (hit : targetOf schema.fields dropping.column ≠ none)
    (drops : dropping.rebuilt = fun _ => .empty)
    (success : changes.foldlM applyChange schema = .ok result) : result.metadata = .empty := by
  induction changes generalizing schema with
  | nil => cases member
  | cons change rest ih =>
      obtain ⟨next, here, later⟩ := except_bind_ok _ _ _ success
      have ofRest := fun other (member : other ∈ rest) => of other (List.mem_cons_of_mem _ member)
      rcases List.mem_cons.mp member with rfl | member
      · rcases applyChange_cases schema next dropping here with
          ⟨missed, _⟩ | ⟨index, field, entries, _, _, _, rfl⟩
        · exact absurd missed hit
        · exact run_metadata_empty rest _ result ofRest (congrFun drops schema.metadata) later
      · rw [← applyChange_targets schema next change here] at hit
        exact ih next ofRest member hit later

/-! ## A table's request -/

namespace Request

/-- The columns that a decoration of the request names. -/
def Names (request : Request) : Decoration → Text → Prop
  | .defaults, column => request.defaults.has column = true
  | .generated, column => request.generated.has column = true
  | .comments, column => request.comments.has column = true

end Request

def allDecorations : List Decoration :=
  [.defaults, .generated, .comments]

/-- Only metadata entries that the decorations own on the columns they name are changed. -/
structure OnlyDecorates (request : Request) (schema result : Schema) : Prop where
  fields : Framed (fun index key => ∃ decoration : Decoration, decoration.Owns key ∧
    ∃ column, request.Names decoration column ∧ targetOf schema.fields column = some index)
    schema.fields result.fields
  metadata : result.metadata = schema.metadata

section

variable (defaultExpressionMetadata generatedExpressionMetadata :
  Text → List Text → Except Text Text)

/-- The request names columns that the schema has, generates none that already is, and its
expressions can be encoded. -/
structure Accepted (request : Request) (schema : Schema) : Prop where
  defaults : ∀ column value, request.defaults.get? column = some value →
    ∀ field, columnOf schema.fields column = some field →
      canonicalDefault (duckdbPrimitive field) value = true →
        ∃ encoded, defaultExpressionMetadata (defaultToSql value) request.owner = .ok encoded
  generated : ∀ column expression, request.generated.get? column = some expression →
    ∃ field, columnOf schema.fields column = some field ∧
      field.metadata.has generatedExpressionKey = false ∧
      field.metadata.has legacyGeneratedKey = false ∧
      ∃ encoded, generatedExpressionMetadata expression request.owner = .ok encoded
  comments : ∀ column, request.comments.has column = true →
    ∃ field, columnOf schema.fields column = some field

theorem applyAll_changes (request : Request) (order : List Decoration) (schema : Schema) :
    applyAll defaultExpressionMetadata generatedExpressionMetadata request order schema =
      (order.flatMap (changesOf defaultExpressionMetadata generatedExpressionMetadata
        request)).foldlM applyChange schema := by
  induction order generalizing schema with
  | nil => rfl
  | cons decoration rest ih =>
      rw [List.flatMap_cons, List.foldlM_append, applyAll, List.foldlM_cons]
      have here : apply defaultExpressionMetadata generatedExpressionMetadata request schema
          decoration = (changesOf defaultExpressionMetadata generatedExpressionMetadata request
            decoration).foldlM applyChange schema := by
        cases decoration <;> rfl
      rw [here]
      exact congrArg _ (funext ih)

private theorem changesOf_columns (request : Request) (decoration : Decoration) :
    ((changesOf defaultExpressionMetadata generatedExpressionMetadata request decoration).map
      (·.column)).Nodup := by
  cases decoration with
  | defaults =>
      rw [changesOf, List.map_map]
      exact request.defaults.nodup_keys
  | generated =>
      rw [changesOf, List.map_map]
      exact request.generated.nodup_keys
  | comments =>
      rw [changesOf, List.map_map]
      exact request.comments.nodup_keys

theorem changes_separate (request : Request) (order : List Decoration) (nodup : order.Nodup) :
    (order.flatMap (changesOf defaultExpressionMetadata generatedExpressionMetadata
      request)).Pairwise Separate := by
  have of := changesOf_of defaultExpressionMetadata generatedExpressionMetadata request
  rw [List.pairwise_flatMap]
  refine ⟨fun decoration _ => ?_, nodup.imp fun {first second} differ left leftMem right rightMem =>
    ⟨first, second, of first left leftMem, of second right rightMem, .inr differ⟩⟩
  have columns := changesOf_columns defaultExpressionMetadata generatedExpressionMetadata request
    decoration
  rw [List.Nodup, List.pairwise_map] at columns
  refine columns.imp_of_mem fun {left right} leftMem rightMem differ => ?_
  exact ⟨decoration, decoration, of decoration left leftMem, of decoration right rightMem,
    .inl differ⟩

theorem changes_of (request : Request) (order : List Decoration) :
    ∀ change ∈ order.flatMap (changesOf defaultExpressionMetadata generatedExpressionMetadata
      request), ∃ decoration, change.Of decoration := by
  intro change member
  obtain ⟨decoration, _, member⟩ := List.mem_flatMap.mp member
  exact ⟨decoration, changesOf_of _ _ request decoration change member⟩

/-- The decorations applied in any two orders are refused alike or give the same schema. -/
theorem applyAll_alike (request : Request) (order other : List Decoration)
    (perm : order.Perm other) (nodup : order.Nodup) (schema : Schema) :
    Alike SameSchema
      (applyAll defaultExpressionMetadata generatedExpressionMetadata request order schema)
      (applyAll defaultExpressionMetadata generatedExpressionMetadata request other schema) := by
  rw [applyAll_changes, applyAll_changes]
  exact runs_alike _ _ (perm.flatMap_right _) (changes_separate _ _ request order nodup)
    (changes_of _ _ request order) schema

private theorem names_of_mem (request : Request) (decoration : Decoration) (change : Change)
    (member : change ∈ changesOf defaultExpressionMetadata generatedExpressionMetadata request
      decoration) : request.Names decoration change.column := by
  cases decoration with
  | defaults =>
      obtain ⟨entry, here, rfl⟩ := List.mem_map.mp member
      exact (OrderedMap.mem_keys_iff _ _).mp (List.mem_map_of_mem here)
  | generated =>
      obtain ⟨entry, here, rfl⟩ := List.mem_map.mp member
      exact (OrderedMap.mem_keys_iff _ _).mp (List.mem_map_of_mem here)
  | comments =>
      obtain ⟨entry, here, rfl⟩ := List.mem_map.mp member
      exact (OrderedMap.mem_keys_iff _ _).mp (List.mem_map_of_mem here)

/-- Applied in any order, the decorations change no field except for entries that they own. -/
theorem applyAll_framed (request : Request) (order : List Decoration) (schema result : Schema)
    (success : applyAll defaultExpressionMetadata generatedExpressionMetadata request order
      schema = .ok result) :
    Framed (fun index key => ∃ decoration : Decoration, decoration.Owns key ∧
      ∃ column, request.Names decoration column ∧ targetOf schema.fields column = some index)
      schema.fields result.fields := by
  rw [applyAll_changes] at success
  refine run_framed _ _ schema result (fun change member index field entries target made => ?_)
    success
  obtain ⟨decoration, _, member⟩ := List.mem_flatMap.mp member
  have of := changesOf_of _ _ request decoration change member
  intro entry entryMem
  exact ⟨decoration, of.owns field entries made entry entryMem, change.column,
    names_of_mem _ _ request decoration change member, target⟩

end

/-! ## The frame of the decorations -/

private theorem plan_ok_iff (schema : Schema) (change : Change) :
    (∃ perform, plan schema change = .ok perform) ↔
      (columnOf schema.fields change.column = none → change.missing = .ok ()) ∧
        ∀ field, columnOf schema.fields change.column = some field →
          ∃ entries, change.entries field = .ok entries := by
  cases target : targetOf schema.fields change.column with
  | none =>
      have absent := targetOf_none _ _ target
      rw [plan_missing schema change target, absent]
      cases change.missing with
      | error failure => simp [Except.map]
      | ok done => simp [Except.map]
  | some index =>
      obtain ⟨field, here, _, found⟩ := targetOf_some _ _ _ target
      rw [plan_named schema change index field target here, found]
      cases made : change.entries field with
      | error failure => simp [Except.map, made]
      | ok entries => simp [Except.map, made]

section

variable (defaultExpressionMetadata generatedExpressionMetadata :
  Text → List Text → Except Text Text)

private theorem defaultEntries_ok_iff (owner : List Text) (value : DefaultValue) (field : Field) :
    (∃ entries, defaultEntries defaultExpressionMetadata owner value field = .ok entries) ↔
      (canonicalDefault (duckdbPrimitive field) value = true →
        ∃ encoded, defaultExpressionMetadata (defaultToSql value) owner = .ok encoded) := by
  unfold defaultEntries
  cases canonicalDefault (duckdbPrimitive field) value with
  | false => simp [pure, Except.pure]
  | true =>
      cases encodes : defaultExpressionMetadata (defaultToSql value) owner with
      | error failure => simp [encodes]
      | ok encoded => simp [encodes, pure, Except.pure]

private theorem generatedEntries_ok_iff (owner : List Text) (table column expression : Text)
    (field : Field) :
    (∃ entries, generatedEntries generatedExpressionMetadata owner table column expression field =
      .ok entries) ↔
      field.metadata.has generatedExpressionKey = false ∧
        field.metadata.has legacyGeneratedKey = false ∧
        ∃ encoded, generatedExpressionMetadata expression owner = .ok encoded := by
  unfold generatedEntries
  cases field.metadata.has generatedExpressionKey with
  | true => simp
  | false =>
      cases field.metadata.has legacyGeneratedKey with
      | true => simp
      | false =>
          cases generatedExpressionMetadata expression owner with
          | error failure => simp [Except.mapError]
          | ok encoded => simp [Except.mapError, pure, Except.pure]

theorem applyAll_ok_iff (request : Request) (order : List Decoration)
    (perm : order.Perm allDecorations) (schema : Schema) :
    (∃ result, applyAll defaultExpressionMetadata generatedExpressionMetadata request order
      schema = .ok result) ↔
      Accepted defaultExpressionMetadata generatedExpressionMetadata request schema := by
  have nodup : order.Nodup := perm.nodup_iff.mpr (by decide)
  have every (decoration : Decoration) : decoration ∈ order :=
    perm.mem_iff.mpr (by cases decoration <;> decide)
  rw [applyAll_changes, run_ok_iff _ (changes_separate _ _ request order nodup) schema]
  constructor
  · intro each
    have planned (decoration : Decoration) (change : Change)
        (member : change ∈ changesOf defaultExpressionMetadata generatedExpressionMetadata request
          decoration) :=
      (plan_ok_iff schema change).mp
        (each change (List.mem_flatMap.mpr ⟨decoration, every decoration, member⟩))
    refine ⟨fun column value named field found => ?_, fun column expression named => ?_,
      fun column named => ?_⟩
    · have entry : (column, value) ∈ request.defaults.entries :=
        (OrderedMap.mem_entries_iff _ _ _).mpr named
      have made := (planned .defaults _ (List.mem_map_of_mem entry)).2 field found
      exact (defaultEntries_ok_iff defaultExpressionMetadata _ _ _).mp made
    · have entry : (column, expression) ∈ request.generated.entries :=
        (OrderedMap.mem_entries_iff _ _ _).mpr named
      have made := planned .generated _ (List.mem_map_of_mem entry)
      cases found : columnOf schema.fields column with
      | none => cases made.1 found
      | some field =>
          exact ⟨field, rfl, (generatedEntries_ok_iff generatedExpressionMetadata _ _ _ _ _).mp
            (made.2 field found)⟩
    · obtain ⟨comment, named⟩ := Option.isSome_iff_exists.mp named
      have entry : (column, comment) ∈ request.comments.entries :=
        (OrderedMap.mem_entries_iff _ _ _).mpr named
      have made := planned .comments _ (List.mem_map_of_mem entry)
      cases found : columnOf schema.fields column with
      | none => cases made.1 found
      | some field => exact ⟨field, rfl⟩
  · intro accepted change member
    obtain ⟨decoration, _, member⟩ := List.mem_flatMap.mp member
    rw [plan_ok_iff]
    cases decoration with
    | defaults =>
        obtain ⟨entry, here, rfl⟩ := List.mem_map.mp member
        refine ⟨fun _ => rfl, fun field found => ?_⟩
        refine (defaultEntries_ok_iff defaultExpressionMetadata _ _ _).mpr ?_
        exact accepted.defaults entry.1 entry.2 ((OrderedMap.mem_entries_iff _ _ _).mp here) field
          found
    | generated =>
        obtain ⟨entry, here, rfl⟩ := List.mem_map.mp member
        obtain ⟨field, found, encodes⟩ := accepted.generated entry.1 entry.2
          ((OrderedMap.mem_entries_iff _ _ _).mp here)
        refine ⟨fun absent => (by cases found.symm.trans absent), fun other named => ?_⟩
        cases found.symm.trans named
        exact (generatedEntries_ok_iff generatedExpressionMetadata _ _ _ _ _).mpr encodes
    | comments =>
        obtain ⟨entry, here, rfl⟩ := List.mem_map.mp member
        obtain ⟨field, found⟩ := accepted.comments entry.1
          ((OrderedMap.mem_keys_iff _ _).mp (List.mem_map_of_mem here))
        exact ⟨fun absent => (by cases found.symm.trans absent), fun _ _ => ⟨_, rfl⟩⟩

/-- Applying the decorations keeps the schema but for the entries they own, in every order
to the same result, exactly when no default makes the schema lose metadata. -/
theorem decorations_keep_schema_iff (request : Request) (schema : Schema) :
    ((∀ order result, order.Perm allDecorations →
        applyAll defaultExpressionMetadata generatedExpressionMetadata request order schema =
          .ok result → OnlyDecorates request schema result) ∧
      ∀ order other, order.Perm allDecorations → other.Perm allDecorations →
        Alike SameSchema
          (applyAll defaultExpressionMetadata generatedExpressionMetadata request order schema)
          (applyAll defaultExpressionMetadata generatedExpressionMetadata request other schema)) ↔
      (Accepted defaultExpressionMetadata generatedExpressionMetadata request schema →
        schema.metadata = .empty ∨
          ∀ column, request.defaults.has column = true →
            columnOf schema.fields column = none) := by
  have alike (order other : List Decoration) (here : order.Perm allDecorations)
      (there : other.Perm allDecorations) :=
    applyAll_alike defaultExpressionMetadata generatedExpressionMetadata request order other
      (here.trans there.symm) (here.nodup_iff.mpr (by decide)) schema
  refine ⟨fun ⟨keeps, _⟩ accepted => ?_, fun condition => ⟨fun order result perm success => ?_, alike⟩⟩
  · obtain ⟨result, success⟩ := (applyAll_ok_iff _ _ request allDecorations (.refl _) schema).mpr
      accepted
    have kept := (keeps allDecorations result (.refl _) success).metadata
    rw [applyAll_changes] at success
    by_cases untouched : ∀ column, request.defaults.has column = true →
        columnOf schema.fields column = none
    · exact .inr untouched
    · push Not at untouched
      obtain ⟨column, named, present⟩ := untouched
      obtain ⟨value, found⟩ := Option.isSome_iff_exists.mp named
      have entry : (column, value) ∈ request.defaults.entries :=
        (OrderedMap.mem_entries_iff _ _ _).mpr found
      have hit : targetOf schema.fields column ≠ none := fun missed =>
        present (targetOf_none _ _ missed)
      have dropped := run_metadata_dropped _ schema result (changes_of _ _ request allDecorations)
        (defaultChange defaultExpressionMetadata request.owner (column, value))
        (List.mem_flatMap.mpr ⟨.defaults, by decide, List.mem_map_of_mem entry⟩) hit rfl success
      exact .inl (kept.symm.trans dropped)
  · refine ⟨applyAll_framed _ _ request order schema result success, ?_⟩
    have accepted := (applyAll_ok_iff _ _ request order perm schema).mp ⟨result, success⟩
    rw [applyAll_changes] at success
    rcases condition accepted with empty | untouched
    · rw [run_metadata_empty _ schema result (changes_of _ _ request order) empty success, empty]
    · refine run_metadata_kept _ schema result (fun change member hit => ?_) success
      obtain ⟨decoration, _, member⟩ := List.mem_flatMap.mp member
      cases decoration with
      | defaults =>
          obtain ⟨entry, here, rfl⟩ := List.mem_map.mp member
          have named : request.defaults.has entry.1 = true :=
            (OrderedMap.mem_keys_iff _ _).mp (List.mem_map_of_mem here)
          obtain ⟨index, target⟩ := Option.ne_none_iff_exists'.mp hit
          obtain ⟨_, _, _, found⟩ := targetOf_some _ _ _ target
          cases (untouched entry.1 named).symm.trans found
      | generated =>
          obtain ⟨_, _, rfl⟩ := List.mem_map.mp member
          rfl
      | comments =>
          obtain ⟨_, _, rfl⟩ := List.mem_map.mp member
          rfl

end

/-- A default of 0 on the only column loses the schema's own metadata. -/
theorem default_drops_metadata :
    ¬∀ (request : Request) (schema result : Schema),
      applyAll (fun sql _ => .ok sql) (fun sql _ => .ok sql) request allDecorations schema =
        .ok result → OnlyDecorates request schema result := by
  intro keeps
  let tags : Metadata := OrderedMap.empty.set (text "k") (text "v")
  let column : Field := ⟨text "a", .int 32 true, true, .empty⟩
  let request : Request :=
    ⟨[text "main"], text "t", OrderedMap.empty.set (text "a") (.number .zero),
      .empty, .empty⟩
  have kept := (keeps request ⟨[column], tags⟩ _ rfl).metadata
  have size : ([] : List (Text × Text)).length = [(text "k", text "v")].length :=
    congrArg (fun metadata => metadata.entries.length) kept
  cases size

end VgiWorker.Catalog.Decorations
