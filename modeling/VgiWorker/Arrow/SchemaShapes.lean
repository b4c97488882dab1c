import VgiWorker.Js.JsonProperties
import VgiWorker.Arrow.LibraryTypes

/-!
# Schema shapes

The text that a schema is compared by where an embedded record has to have an exact one,
and when two schemas have the same.
-/

set_option autoImplicit false

namespace VgiWorker.Arrow.Library

open VgiWorker.Js

structure SchemaObject where
  fields : List (FieldOf TypeObject)
  metadata : Metadata

/-- What the shapes of a backend depend on: the property names of its types, the text that
`String(type)` gives, and whether a dictionary type answers `children` with its values'. -/
structure Backend where
  spelling : Spelling
  typeText : TypeObject → Text
  dictionaryChildren : Bool

/-- flechette's types are plain objects, without a `toString` of their own. -/
def flechetteBackend : Backend where
  spelling := .flechette true
  typeText _ := text "[object Object]"
  dictionaryChildren := false

section

variable (backend : Backend) (localeCompare : Text → Text → Int)

def sortedEntries (metadata : Metadata) : List (Text × Text) :=
  metadata.entries.mergeSort fun first second => decide (localeCompare first.1 second.1 ≤ 0)

def metadataShape (metadata : Metadata) : JsonArray :=
  .array ((sortedEntries localeCompare metadata).map fun entry =>
    .array [.string entry.1, .string entry.2])

section

-- What is written of a field's metadata: its shape, or nothing.
variable (noted : Metadata → List JsonArray)

mutual

def fieldShape : FieldOf TypeObject → JsonArray
  | ⟨name, type, nullable, metadata⟩ =>
      .array ([.string name, .bool nullable, .string (backend.typeText type)] ++ noted metadata ++
        [.array (childShapes type)])

def childShapes : TypeObject → List JsonArray
  | .plain _ => []
  | .parent _ children => fieldShapes children
  | .encoded _ dictionary _ =>
      if backend.dictionaryChildren then childShapes dictionary else []

def fieldShapes : List (FieldOf TypeObject) → List JsonArray
  | [] => []
  | field :: rest => fieldShape field :: fieldShapes rest

end

end

/-- The shape of a projection record's schema. -/
def projectionShape (schema : SchemaObject) : Text :=
  JsonArray.stringify (.array [
    .array (fieldShapes backend (fun metadata => [metadataShape localeCompare metadata])
      schema.fields), metadataShape localeCompare schema.metadata])

/-- The shape of a column expression's schema. -/
def expressionShape (schema : SchemaObject) : Text :=
  JsonArray.stringify (.array (fieldShapes backend (fun _ => []) schema.fields))

/-! ## The same schema -/

end

structure ArrowSchema where
  fields : List (FieldOf ArrowType)
  metadata : Metadata

def ArrowSchema.object (backend : Backend) (schema : ArrowSchema) : SchemaObject :=
  ⟨objects backend.spelling schema.fields, schema.metadata⟩

section

-- Whether metadata is compared.
variable (noted : Bool)

def SameMetadata (left right : Metadata) : Prop :=
  noted = true → ∀ key, left.get? key = right.get? key

mutual

/-- The same type with all its parameters at every depth, dictionary ids aside. -/
def SameType : ArrowType → ArrowType → Prop
  | .leaf type, .leaf other => type = other
  | .nested kind children, .nested other children' => kind = other ∧ SameFields children children'
  | .dictionary _ dictionary indices ordered, .dictionary _ dictionary' indices' ordered' =>
      SameType dictionary dictionary' ∧ SameType indices indices' ∧ ordered = ordered'
  | _, _ => False

def SameFields : List (FieldOf ArrowType) → List (FieldOf ArrowType) → Prop
  | [], [] => True
  | ⟨name, type, nullable, metadata⟩ :: rest, ⟨name', type', nullable', metadata'⟩ :: rest' =>
      name = name' ∧ nullable = nullable' ∧ SameMetadata noted metadata metadata' ∧
        SameType type type' ∧ SameFields rest rest'
  | _, _ => False

end

/-- The same fields at every depth, and the same metadata where that is compared. -/
structure SameSchemas (left right : ArrowSchema) : Prop where
  fields : SameFields noted left.fields right.fields
  metadata : SameMetadata noted left.metadata right.metadata

end

/-! ## Schemas that look alike -/

section

variable (backend : Backend) (localeCompare : Text → Text → Int) (noted : Bool)

/-- The children that a type answers with. -/
def childrenOf : ArrowType → List (FieldOf ArrowType)
  | .leaf _ => []
  | .nested _ children => children
  | .dictionary _ dictionary _ _ =>
      if backend.dictionaryChildren then childrenOf dictionary else []

def LooksLikeMetadata (left right : Metadata) : Prop :=
  noted = true → sortedEntries localeCompare left = sortedEntries localeCompare right

mutual

/-- The children of the first type look like the fields. -/
def LooksLikeChildren : ArrowType → List (FieldOf ArrowType) → Prop
  | .leaf _, fields => fields = []
  | .nested _ children, fields => LooksLike children fields
  | .dictionary _ dictionary _ _, fields =>
      if backend.dictionaryChildren then LooksLikeChildren dictionary fields else fields = []

/-- The same names, nullability, texts of the types and metadata at every depth; what the
text of a type does not tell may differ. -/
def LooksLike : List (FieldOf ArrowType) → List (FieldOf ArrowType) → Prop
  | [], [] => True
  | ⟨name, type, nullable, metadata⟩ :: rest, ⟨name', type', nullable', metadata'⟩ :: rest' =>
      name = name' ∧ nullable = nullable' ∧
        backend.typeText (object backend.spelling type) =
          backend.typeText (object backend.spelling type') ∧
        LooksLikeMetadata localeCompare noted metadata metadata' ∧
        LooksLikeChildren type (childrenOf backend type') ∧ LooksLike rest rest'
  | _, _ => False

end

structure SchemasLookAlike (left right : ArrowSchema) : Prop where
  fields : LooksLike backend localeCompare noted left.fields right.fields
  metadata : LooksLikeMetadata localeCompare noted left.metadata right.metadata

end

/-! ## What the shapes tell -/

section

variable (backend : Backend) (localeCompare : Text → Text → Int)

/-- What is written of a field's metadata. -/
def notedShape (noted : Bool) (metadata : Metadata) : List JsonArray :=
  if noted then [metadataShape localeCompare metadata] else []

private theorem metadataShape_iff (left right : Metadata) :
    metadataShape localeCompare left = metadataShape localeCompare right ↔
      sortedEntries localeCompare left = sortedEntries localeCompare right := by
  constructor
  · intro same
    refine List.map_injective_iff.mpr (fun first second equal => ?_) (JsonArray.array.inj same)
    simp only [JsonArray.array.injEq, List.cons.injEq, JsonArray.string.injEq, and_true] at equal
    exact Prod.ext equal.1 equal.2
  · intro same
    rw [metadataShape, same, metadataShape]

private theorem notedShape_iff (noted : Bool) (left right : Metadata) :
    notedShape localeCompare noted left = notedShape localeCompare noted right ↔
      LooksLikeMetadata localeCompare noted left right := by
  cases noted with
  | false => simp [notedShape, LooksLikeMetadata]
  | true => simp [notedShape, LooksLikeMetadata, metadataShape_iff]

private theorem childShapes_childrenOf (noted : Metadata → List JsonArray) (type : ArrowType) :
    childShapes backend noted (object backend.spelling type) =
      fieldShapes backend noted (objects backend.spelling (childrenOf backend type)) := by
  fun_induction childrenOf backend type with
  | case1 leaf => simp [object, objects, childShapes, fieldShapes]
  | case2 kind children => simp [object, childShapes]
  | case3 id dictionary indices ordered answers ih => simpa [object, childShapes, answers] using ih
  | case4 id dictionary indices ordered answers =>
      simp [object, objects, childShapes, fieldShapes, answers]

private theorem fieldShapes_nil (noted : Metadata → List JsonArray)
    (fields : List (FieldOf ArrowType)) :
    [] = fieldShapes backend noted (objects backend.spelling fields) ↔ fields = [] := by
  cases fields with
  | nil => simp [objects, fieldShapes]
  | cons field rest => simp [objects, fieldShapes]

mutual

private theorem childShapes_iff (noted : Bool) : (type : ArrowType) →
    (fields : List (FieldOf ArrowType)) →
    (childShapes backend (notedShape localeCompare noted) (object backend.spelling type) =
        fieldShapes backend (notedShape localeCompare noted) (objects backend.spelling fields) ↔
      LooksLikeChildren backend localeCompare noted type fields)
  | .leaf _, fields => by
      rw [object, childShapes, LooksLikeChildren]
      exact fieldShapes_nil backend _ fields
  | .nested _ children, fields => by
      rw [object, childShapes, LooksLikeChildren]
      exact fieldShapes_iff noted children fields
  | .dictionary _ dictionary _ _, fields => by
      rw [object, childShapes, LooksLikeChildren]
      split
      · exact childShapes_iff noted dictionary fields
      · exact fieldShapes_nil backend _ fields

private theorem fieldShapes_iff (noted : Bool) : (left right : List (FieldOf ArrowType)) →
    (fieldShapes backend (notedShape localeCompare noted) (objects backend.spelling left) =
        fieldShapes backend (notedShape localeCompare noted) (objects backend.spelling right) ↔
      LooksLike backend localeCompare noted left right)
  | [], [] => by simp [objects, fieldShapes, LooksLike]
  | [], _ :: _ => by simp [objects, fieldShapes, LooksLike]
  | _ :: _, [] => by simp [objects, fieldShapes, LooksLike]
  | ⟨name, type, nullable, metadata⟩ :: rest, ⟨name', type', nullable', metadata'⟩ :: rest' => by
      have children := childShapes_iff noted type (childrenOf backend type')
      rw [← childShapes_childrenOf] at children
      simp only [objects, fieldShapes, LooksLike, fieldShape, List.cons.injEq,
        JsonArray.array.injEq, List.cons_append, List.nil_append, JsonArray.string.injEq,
        JsonArray.bool.injEq, List.append_singleton_inj, notedShape_iff, children,
        fieldShapes_iff noted rest rest', and_assoc]

end

theorem projectionShape_iff (left right : ArrowSchema) :
    projectionShape backend localeCompare (left.object backend) =
        projectionShape backend localeCompare (right.object backend) ↔
      SchemasLookAlike backend localeCompare true left right := by
  have fields := fieldShapes_iff backend localeCompare true left.fields right.fields
  have metadata := notedShape_iff localeCompare true left.metadata right.metadata
  constructor
  · intro same
    have shapes := JsonArray.array.inj (JsonArray.stringify_inj _ _ same)
    obtain ⟨sameFields, sameMetadata⟩ := List.cons.inj shapes
    exact ⟨fields.mp (JsonArray.array.inj sameFields), metadata.mp sameMetadata⟩
  · intro alike
    have sameFields := fields.mpr alike.fields
    have sameMetadata := metadata.mpr alike.metadata
    exact congrArg JsonArray.stringify
      (congrArg JsonArray.array (List.cons_eq_cons.mpr ⟨congrArg JsonArray.array sameFields,
        sameMetadata⟩))

theorem expressionShape_iff (left right : ArrowSchema) :
    expressionShape backend (left.object backend) = expressionShape backend (right.object backend) ↔
      SchemasLookAlike backend localeCompare false left right := by
  have fields := fieldShapes_iff backend localeCompare false left.fields right.fields
  constructor
  · intro same
    have shapes := JsonArray.array.inj (JsonArray.stringify_inj _ _ same)
    exact ⟨fields.mp shapes, nofun⟩
  · intro alike
    exact congrArg JsonArray.stringify (congrArg JsonArray.array (fields.mpr alike.fields))

end

end VgiWorker.Arrow.Library
