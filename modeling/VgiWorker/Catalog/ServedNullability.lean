import VgiWorker.Catalog.ServedFields

/-!
# Nullability from the records

The paths that valid records require, and the fields that are served for them.
-/

set_option autoImplicit false

namespace VgiWorker.Catalog.Constraints

open VgiWorker.Js VgiWorker.Arrow

/-- The record makes the fields at its paths non-nullable. -/
def ConstraintRecordView.Requires (record : ConstraintRecordView) (path : List Text) : Prop :=
  (record.kind = ConstraintKind.notNull.name ∨ record.kind = ConstraintKind.primaryKey.name) ∧
    path ∈ record.columns

private theorem mem_addText (texts : List Text) (added other : Text) :
    other ∈ addText texts added ↔ other = added ∨ other ∈ texts := by
  unfold addText
  split
  · rename_i member
    exact ⟨.inr, fun either => either.elim (fun same => same ▸ member) id⟩
  · rw [List.mem_append, List.mem_singleton, or_comm]

private theorem mem_addTexts (paths : List (List Text)) (texts : List Text) (path : List Text) :
    stringifyTexts path ∈
        paths.foldl (fun required path => addText required (stringifyTexts path)) texts ↔
      path ∈ paths ∨ stringifyTexts path ∈ texts := by
  induction paths generalizing texts with
  | nil => simp
  | cons first rest ih =>
      rw [List.foldl_cons, ih, mem_addText, List.mem_cons]
      constructor
      · rintro (later | same | before)
        · exact .inl (.inr later)
        · exact .inl (.inl (stringifyTexts_inj _ _ same))
        · exact .inr before
      · rintro ((rfl | later) | before)
        · exact .inr (.inl rfl)
        · exact .inl later
        · exact .inr (.inr before)

section

variable (toLowerCase toUpperCase : Text → Text) (codecs : Codecs Text) (served : Served)

private theorem checkIdentity_keeps (record : ConstraintRecordView) (seen after : Validated)
    (success : checkIdentity toLowerCase served record seen = .ok after) :
    after.required = seen.required ∧ after.records = seen.records := by
  unfold checkIdentity at success
  iterate 5 obtain ⟨_, _, success⟩ := except_bind_ok _ _ _ success
  cases success
  exact ⟨rfl, rfl⟩

/-- The paths that a record adds to the required ones. -/
private def Adds (record : ConstraintRecordView) (seen after : Validated) : Prop :=
  after.records = seen.records ∧ ∀ path, stringifyTexts path ∈ after.required ↔
    record.Requires path ∨ stringifyTexts path ∈ seen.required

private theorem validateNotNull_adds (record : ConstraintRecordView) (seen after : Validated)
    (isNotNull : record.kind = ConstraintKind.notNull.name)
    (success : validateNotNull served record seen = .ok after) : Adds record seen after := by
  unfold validateNotNull at success
  obtain ⟨_, single, success⟩ := except_bind_ok _ _ _ success
  obtain ⟨index, _, success⟩ := except_bind_ok _ _ _ success
  have one : record.columns.length = 1 := not_not.mp ((throwIf_eq_ok _ _).mp single)
  split at success
  · cases success
  · obtain ⟨_, _, success⟩ := except_bind_ok _ _ _ success
    obtain ⟨_, _, success⟩ := except_bind_ok _ _ _ success
    cases success
    refine ⟨rfl, fun path => ?_⟩
    obtain ⟨only, same⟩ := List.length_eq_one_iff.mp one
    rw [mem_addText, ConstraintRecordView.Requires, same, List.headD_cons, List.mem_singleton]
    constructor
    · rintro (written | before)
      · exact .inl ⟨.inl isNotNull, stringifyTexts_inj _ _ written⟩
      · exact .inr before
    · rintro (⟨_, rfl⟩ | before)
      · exact .inl rfl
      · exact .inr before

private theorem validateKey_adds (record : ConstraintRecordView) (primary : Bool)
    (seen after : Validated)
    (kind : record.kind = (if primary then ConstraintKind.primaryKey else .unique).name)
    (success : validateKey served record primary seen = .ok after) : Adds record seen after := by
  unfold validateKey at success
  obtain ⟨_, _, success⟩ := except_bind_ok _ _ _ success
  cases primary with
  | true =>
      obtain ⟨_, _, success⟩ := except_bind_ok _ _ _ success
      cases success
      refine ⟨rfl, fun path => ?_⟩
      rw [mem_addTexts, ConstraintRecordView.Requires]
      exact or_congr_left ⟨fun member => ⟨.inr kind, member⟩, fun requires => requires.2⟩
  | false =>
      cases success
      refine ⟨rfl, fun path => ?_⟩
      have none : ¬record.Requires path := by
        rintro ⟨isNotNull | isPrimary, _⟩
        · exact absurd (kind.symm.trans isNotNull) (by decide)
        · exact absurd (kind.symm.trans isPrimary) (by decide)
      simp [none]

private theorem adds_nothing (record : ConstraintRecordView) (seen : Validated)
    (notNotNull : record.kind ≠ ConstraintKind.notNull.name)
    (notPrimary : record.kind ≠ ConstraintKind.primaryKey.name) : Adds record seen seen := by
  refine ⟨rfl, fun path => ?_⟩
  have none : ¬record.Requires path := fun requires => requires.1.elim notNotNull notPrimary
  simp [none]

private theorem validateKind_adds (bytes : Bytes) (record : ConstraintRecordView)
    (seen after : Validated)
    (success : validateKind toLowerCase toUpperCase codecs served bytes record seen = .ok after) :
    Adds record seen after := by
  unfold validateKind at success
  dsimp only at success
  split at success
  · rename_i isCheck
    obtain ⟨_, _, success⟩ := except_bind_ok _ _ _ success
    obtain ⟨_, _, success⟩ := except_bind_ok _ _ _ success
    cases success
    exact adds_nothing record _ (by rw [isCheck]; decide) (by rw [isCheck]; decide)
  split at success
  · rename_i isNotNull
    exact validateNotNull_adds served record seen after isNotNull success
  split at success
  · rename_i isPrimary
    exact validateKey_adds served record true seen after isPrimary success
  split at success
  · rename_i isUnique
    exact validateKey_adds served record false seen after isUnique success
  split at success
  · rename_i isForeign
    obtain ⟨_, _, success⟩ := except_bind_ok _ _ _ success
    cases success
    exact adds_nothing record _ (by rw [isForeign]; decide) (by rw [isForeign]; decide)
  · cases success

/-- The required paths are those of the records. -/
private def Exact (seen : Validated) : Prop :=
  ∀ path, stringifyTexts path ∈ seen.required ↔ ∃ record ∈ seen.records, record.Requires path

private theorem validateRecord_exact (bytes : Bytes) (seen after : Validated) (exact_ : Exact seen)
    (success : validateRecord toLowerCase toUpperCase codecs served seen bytes = .ok after) :
    Exact after := by
  unfold validateRecord at success
  obtain ⟨record, _, success⟩ := except_bind_ok _ _ _ success
  obtain ⟨identified, identity, success⟩ := except_bind_ok _ _ _ success
  obtain ⟨added, kind, success⟩ := except_bind_ok _ _ _ success
  cases success
  obtain ⟨sameRequired, sameRecords⟩ := checkIdentity_keeps toLowerCase served record seen _ identity
  obtain ⟨addedRecords, addedRequired⟩ :=
    validateKind_adds toLowerCase toUpperCase codecs served bytes record identified added kind
  intro path
  dsimp only
  rw [addedRequired path, sameRequired, exact_ path, addedRecords, sameRecords]
  simp only [List.mem_append, List.mem_singleton, or_and_right, exists_or, exists_eq_left]
  exact or_comm

private theorem validateRecords_exact (constraints : List Bytes) (seen after : Validated)
    (exact_ : Exact seen)
    (success : constraints.foldlM (validateRecord toLowerCase toUpperCase codecs served) seen =
      .ok after) : Exact after := by
  induction constraints generalizing seen with
  | nil =>
      cases success
      exact exact_
  | cons bytes rest ih =>
      rw [List.foldlM_cons] at success
      obtain ⟨next, here, later⟩ := except_bind_ok _ _ _ success
      exact ih next
        (validateRecord_exact toLowerCase toUpperCase codecs served bytes seen next exact_ here) later

/-- Valid records require exactly the paths of their NOT NULL and PRIMARY KEY constraints. -/
theorem required_iff (table : Text) (schemaPath : List Text) (fields : List Field)
    (constraints : List Bytes) (validated : Validated)
    (valid : validateTableConstraints toLowerCase toUpperCase codecs table schemaPath fields
      constraints = .ok validated) (path : List Text) :
    stringifyTexts path ∈ validated.required ↔
      ∃ record ∈ validated.records, record.Requires path := by
  unfold validateTableConstraints at valid
  obtain ⟨_, _, valid⟩ := except_bind_ok _ _ _ valid
  obtain ⟨rowId, _, valid⟩ := except_bind_ok _ _ _ valid
  refine validateRecords_exact toLowerCase toUpperCase codecs _ constraints .empty validated ?_ valid
    path
  intro path
  exact iff_of_false List.not_mem_nil (by simp [Validated.empty])

end

/-- The fields served for valid records: below ordinary structs, outside the row-id column, a field
is non-nullable exactly when a record requires its path; all else is as stated, at every depth;
serving again changes nothing, and a list that would not change is returned itself. -/
theorem served_nullability (toLowerCase toUpperCase : Text → Text) (codecs : Codecs Text) (table : Text)
    (schemaPath : List Text) (fields : List Field) (constraints : List Bytes)
    (validated : Validated)
    (valid : validateTableConstraints toLowerCase toUpperCase codecs table schemaPath fields
      constraints = .ok validated) :
    let served := servedConstraintFields fields validated.required
    (∀ position field, fieldAt fields position = some field →
      ∃ servedField, fieldAt served position = some servedField ∧
        ((inRowId fields position = true ∨ namesAt fields position = none) →
          servedField.nullable = field.nullable) ∧
        ∀ names, inRowId fields position = false → namesAt fields position = some names →
          (servedField.nullable = false ↔
            ∃ record ∈ validated.records, record.Requires names)) ∧
      forgetNullableAll served = forgetNullableAll fields ∧
      rewrite validated.required [] served = none ∧
      (rewrite validated.required [] fields = none ↔ served = fields) := by
  have required := required_iff toLowerCase toUpperCase codecs table schemaPath fields constraints
    validated valid
  refine ⟨?_, forgetNullableAll_served _ fields, rewrite_served _ fields, rewrite_none_iff _ fields⟩
  intro position field stands
  obtain ⟨held, heldAt, nullable⟩ :=
    nullable_served validated.required position [] fields field stands
  refine ⟨held, ?_, ?_, ?_⟩
  · rw [servedConstraintFields, rewrite_getD]
    exact heldAt
  · rintro (inside | unnamed)
    · simpa [nullableAt, inside] using nullable
    · simpa [nullableAt, unnamed] using nullable
  · intro names outside named
    rw [nullable, ← required names]
    simp [nullableAt, outside, named]

/-- A codec that always reads the record of one NOT NULL constraint. -/
def notNullCodecs : Codecs Text where
  catalogObjectRef :=
    ⟨fun _ => .ok [], fun _ => .ok ⟨text "constraint", [text "main"], text "c", some (text "t")⟩⟩
  sqlExpression := ⟨fun _ => .ok [], fun _ => .error []⟩
  foreignKeyDefinition := ⟨fun _ => .ok [], fun _ => .error []⟩
  constraintDefinition :=
    ⟨fun _ => .ok [], fun _ => .ok ⟨text "NOT_NULL", [[text "a"]], none, none, none⟩⟩
  constraintInfo :=
    ⟨fun _ => .ok [], fun _ => .ok ⟨[], [], text "ENFORCED", text "ALL_ROWS", none⟩⟩

def notNullRecord : ConstraintRecordView where
  schemaPath := [text "main"]
  table := text "t"
  id := text "c"
  kind := text "NOT_NULL"
  columns := [[text "a"]]
  enforcement := text "ENFORCED"
  validation := text "ALL_ROWS"
  declaredName := none
  checkSql := none
  references := none

def nullableColumn : Field :=
  ⟨text "a", .utf8, true, .empty⟩

theorem served_not_null :
    ∃ validated,
      validateTableConstraints id id notNullCodecs (text "t") [text "main"] [nullableColumn] [[]] =
        .ok validated ∧
      ∃ served ∈ servedConstraintFields [nullableColumn] validated.required,
        served.nullable = false := by
  let validated : Validated :=
    ⟨[notNullRecord], [stringifyTexts [text "a"]], [text "c"], [], 0⟩
  have valid : validateTableConstraints id id notNullCodecs (text "t") [text "main"]
      [nullableColumn] [[]] = .ok validated := by decide +kernel
  refine ⟨validated, valid, ?_⟩
  have result := served_nullability id id notNullCodecs (text "t") [text "main"] [nullableColumn]
    [[]] validated valid
  obtain ⟨served, servedAt, _, exact_⟩ := result.1 [0] nullableColumn rfl
  refine ⟨served, List.mem_of_getElem? servedAt, (exact_ [text "a"] rfl rfl).mpr ?_⟩
  exact ⟨notNullRecord, List.mem_singleton.mpr rfl, .inl rfl, List.mem_singleton.mpr rfl⟩

/-- The row-id column of a table without constraints stays non-nullable. -/
theorem row_id_stays_required :
    let rowId : Field := ⟨text "rowid", .int 64 true, false, OrderedMap.empty.set (text "is_row_id") []⟩
    ∃ validated,
      validateTableConstraints id id notNullCodecs (text "t") [text "main"] [rowId] [] =
        .ok validated ∧
      validated.required = [] ∧
      ∃ served ∈ servedConstraintFields [rowId] validated.required, served.nullable = false := by
  refine ⟨.empty, by decide +kernel, rfl, _, List.mem_singleton.mpr rfl, rfl⟩

end VgiWorker.Catalog.Constraints
