import VgiWorker.Arrow.NormalizeType

/-!
# What normalising a type keeps

Every parameter, name, nullability and metadata of a type is kept but for the field that
holds a map's entries, which the constructor makes anew.
-/

set_option autoImplicit false

namespace VgiWorker.Arrow.Library

open VgiWorker.Js

/-! ## The supported types -/

def LeafType.Supported : LeafType → Prop
  | .int bitWidth _ => bitWidth ∈ integerWidths
  | .decimal bitWidth _ _ => bitWidth ∈ decimalWidths
  | .time unit bitWidth => bitWidth = timeBitWidth unit
  | .binaryView | .utf8View => False
  | _ => True

/-- The children that a type of the kind has. -/
def NestKind.Takes : NestKind → List (FieldOf ArrowType) → Prop
  | .list, children | .largeList, children | .fixedSizeList _, children =>
      ∃ item, children = [item]
  | .struct, _ | .union _ _, _ => True
  | .map _, children => ∃ name key value nullable metadata,
      children = [⟨name, .nested .struct [key, value], nullable, metadata⟩]
  | .runEndEncoded, _ | .listView, _ | .largeListView, _ => False

mutual

def Supported : ArrowType → Prop
  | .leaf type => type.Supported
  | .nested kind children => kind.Takes children ∧ SupportedFields children
  | .dictionary _ dictionary indices _ => Supported dictionary ∧ Supported indices

def SupportedFields : List (FieldOf ArrowType) → Prop
  | [] => True
  | ⟨_, type, _, _⟩ :: rest => Supported type ∧ SupportedFields rest

end

section

variable (flechette : Flechette)

/-! ## The normalised type -/

/-- The child of a rebuilt type: a map's entries are in the constructor's own field. -/
def entriesField (kind : NestKind) (field : FieldOf ArrowType) : FieldOf ArrowType :=
  match kind with
  | .map _ =>
      ⟨flechette.entriesName, field.type, flechette.entriesNullable, flechette.entriesMetadata⟩
  | _ => field

mutual

/-- The type that a type is rebuilt as. -/
def normalised : ArrowType → ArrowType
  | .leaf type => .leaf type
  | .nested kind children =>
      .nested kind ((normalisedFields children).map (entriesField flechette kind))
  | .dictionary id dictionary indices ordered =>
      .dictionary id (normalised dictionary) (normalised indices) ordered

def normalisedFields : List (FieldOf ArrowType) → List (FieldOf ArrowType)
  | [] => []
  | ⟨name, type, nullable, metadata⟩ :: rest =>
      ⟨name, normalised type, nullable, metadata⟩ :: normalisedFields rest

end

/-- Every map's entries are in a field like the one that the constructor makes. -/
def EntriesStandard (kind : NestKind) (field : FieldOf ArrowType) : Prop :=
  match kind with
  | .map _ => field.name = flechette.entriesName ∧ field.nullable = flechette.entriesNullable ∧
      field.metadata = flechette.entriesMetadata
  | _ => True

mutual

def StandardMaps : ArrowType → Prop
  | .leaf _ => True
  | .nested kind children =>
      (∀ child ∈ children, EntriesStandard flechette kind child) ∧ StandardMapFields children
  | .dictionary _ dictionary indices _ => StandardMaps dictionary ∧ StandardMaps indices

def StandardMapFields : List (FieldOf ArrowType) → Prop
  | [] => True
  | ⟨_, type, _, _⟩ :: rest => StandardMaps type ∧ StandardMapFields rest

end

/-! ## Rebuilding -/

private theorem rebuild_leaf (spelling : Spelling) (type : LeafType) (supported : type.Supported)
    (self : TypeObject) (parts : Parts) :
    rebuild flechette self (leafProperties spelling type) parts =
      some (.plain (leafProperties (.flechette true) type)) := by
  cases type with
  | int bitWidth signed =>
      have native := flechette.int_eq bitWidth supported signed
      have signs : ((leafProperties spelling (.int bitWidth signed)).isSigned <|>
          (leafProperties spelling (.int bitWidth signed)).signed).getD true = signed := by
        cases spelling with
        | arrowJs => rfl
        | flechette aliased => cases aliased <;> rfl
      have width : (leafProperties spelling (.int bitWidth signed)).bitWidth = some bitWidth := by
        cases spelling <;> rfl
      have id : (leafProperties spelling (.int bitWidth signed)).typeId = 2 := by
        cases spelling <;> rfl
      rw [rebuild, id, if_neg (by decide), if_neg (by decide), if_pos rfl, signs, width, native]
      rfl
  | float precision => exact congrArg some (flechette.float_eq precision)
  | decimal bitWidth precision scale =>
      exact congrArg some (flechette.decimal_eq bitWidth supported precision scale)
  | time unit bitWidth =>
      have width : bitWidth = timeBitWidth unit := supported
      subst width
      exact congrArg some (flechette.time_eq unit)
  | date unit => exact congrArg some (flechette.date_eq unit)
  | timestamp unit timezone => exact congrArg some (flechette.timestamp_eq unit timezone)
  | interval unit => exact congrArg some (flechette.interval_eq unit)
  | duration unit => exact congrArg some (flechette.duration_eq unit)
  | fixedSizeBinary byteWidth =>
      have native := congrArg some (flechette.fixedSizeBinary_eq byteWidth)
      cases spelling <;> exact native
  | null => exact congrArg some flechette.nullType_eq
  | bool => exact congrArg some flechette.bool_eq
  | utf8 => exact congrArg some flechette.utf8_eq
  | largeUtf8 => exact congrArg some flechette.largeUtf8_eq
  | binary => exact congrArg some flechette.binary_eq
  | largeBinary => exact congrArg some flechette.largeBinary_eq
  | binaryView | utf8View => exact absurd supported not_false

private theorem firstField_of_fFields (child : FieldOf TypeObject)
    (fields : List (FieldOf TypeObject)) (rebuilt : fFields flechette [child] = some fields) :
    ∃ field, fields = [field] ∧ firstField flechette [child] = some field := by
  rw [fFields] at rebuilt
  obtain ⟨field, here, rest⟩ := Option.bind_eq_some_iff.mp rebuilt
  cases rest
  exact ⟨field, rfl, here⟩

private theorem firstTwo_of_fFields (key value : FieldOf TypeObject)
    (fields : List (FieldOf TypeObject)) (rebuilt : fFields flechette [key, value] = some fields) :
    ∃ first second, fields = [first, second] ∧
      firstTwo flechette [key, value] = some (first, second) := by
  rw [fFields] at rebuilt
  obtain ⟨first, here, rest⟩ := Option.bind_eq_some_iff.mp rebuilt
  obtain ⟨others, later, rfl⟩ := Option.map_eq_some_iff.mp rest
  obtain ⟨second, rfl, there⟩ := firstField_of_fFields flechette value others later
  refine ⟨first, second, rfl, ?_⟩
  rw [firstTwo, here, Option.bind_some]
  exact congrArg (Option.map (first, ·)) there

private theorem rebuild_nested (spelling : Spelling) (kind : NestKind)
    (children : List (FieldOf ArrowType)) (takes : kind.Takes children)
    (fields : List (FieldOf ArrowType))
    (rebuilt : fFields flechette (objects spelling children) =
      some (objects (.flechette true) fields))
    (entries : ∀ name key value nullable metadata,
      children = [⟨name, .nested .struct [key, value], nullable, metadata⟩] →
        ∃ key' value' name' nullable' metadata',
          fields = [⟨name', .nested .struct [key', value'], nullable', metadata'⟩] ∧
          fFields flechette (objects spelling [key, value]) =
            some (objects (.flechette true) [key', value'])) :
    toFlechetteType flechette (.parent (nestProperties spelling kind) (objects spelling children)) =
      some (object (.flechette true) (.nested kind (fields.map (entriesField flechette kind)))) := by
  have single : (∃ item, children = [item]) → ∃ field,
      objects (.flechette true) fields = [field] ∧
        firstField flechette (objects spelling children) = some field := by
    intro ⟨item, one⟩
    subst one
    obtain ⟨name, type, nullable, metadata⟩ := item
    exact firstField_of_fFields flechette _ _ rebuilt
  have unchanged (same : ∀ field, entriesField flechette kind field = field) :
      fields.map (entriesField flechette kind) = fields := by
    rw [funext same, List.map_id']
  rw [toFlechetteType]
  cases kind with
  | list =>
      obtain ⟨field, one, first⟩ := single takes
      rw [unchanged fun _ => rfl, object, one]
      change (firstField flechette _).map flechette.list = _
      rw [first, Option.map_some, flechette.list_eq]
      rfl
  | largeList =>
      obtain ⟨field, one, first⟩ := single takes
      rw [unchanged fun _ => rfl, object, one]
      change (firstField flechette _).map flechette.largeList = _
      rw [first, Option.map_some, flechette.largeList_eq]
      rfl
  | fixedSizeList size =>
      obtain ⟨field, one, first⟩ := single takes
      have width : ((nestProperties spelling (.fixedSizeList size)).listSize <|>
          (nestProperties spelling (.fixedSizeList size)).stride) = some size := by
        cases spelling <;> rfl
      have id : (nestProperties spelling (.fixedSizeList size)).typeId = 16 := by
        cases spelling <;> rfl
      rw [unchanged fun _ => rfl, object, one]
      simp only [rebuild, id, first, Option.map_some, width, flechette.fixedSizeList_eq]
      rfl
  | struct =>
      rw [unchanged fun _ => rfl, object]
      change (fFields flechette _).map flechette.struct = _
      rw [rebuilt, Option.map_some, flechette.struct_eq]
      rfl
  | union mode typeIds =>
      rw [unchanged fun _ => rfl, object]
      change (fFields flechette _).map _ = _
      rw [rebuilt, Option.map_some]
      exact congrArg some (flechette.union_eq mode _ typeIds)
  | map keysSorted =>
      obtain ⟨name, key, value, nullable, metadata, one⟩ := takes
      obtain ⟨key', value', name', nullable', metadata', fieldsEq, pair⟩ :=
        entries name key value nullable metadata one
      subst one fieldsEq
      obtain ⟨keyName, keyType, keyNullable, keyMetadata⟩ := key
      obtain ⟨valueName, valueType, valueNullable, valueMetadata⟩ := value
      obtain ⟨first, second, two, both⟩ := firstTwo_of_fFields flechette _ _ _ pair
      change (firstTwo flechette _).map _ = _
      simp only [objects]
      rw [both, Option.map_some, flechette.map_eq, ← two]
      rfl
  | runEndEncoded | listView | largeListView => exact absurd takes not_false

/-- The fields of a struct are rebuilt where the struct is. -/
private theorem fFields_of_struct (spelling : Spelling) (children fields : List (FieldOf ArrowType))
    (rebuilt : toFlechetteType flechette (object spelling (.nested .struct children)) =
      some (object (.flechette true) (.nested .struct fields))) :
    fFields flechette (objects spelling children) = some (objects (.flechette true) fields) := by
  rw [object, toFlechetteType] at rebuilt
  change (fFields flechette _).map flechette.struct = _ at rebuilt
  obtain ⟨built, here, same⟩ := Option.map_eq_some_iff.mp rebuilt
  rw [flechette.struct_eq, object] at same
  rw [here]
  exact congrArg some (TypeObject.parent.inj same).2

private theorem type_of_fFields (spelling : Spelling) (field other : FieldOf ArrowType)
    (rebuilt : fFields flechette (objects spelling [field]) =
      some (objects (.flechette true) [other])) :
    toFlechetteType flechette (object spelling field.type) =
      some (object (.flechette true) other.type) := by
  obtain ⟨name, type, nullable, metadata⟩ := field
  obtain ⟨name', type', nullable', metadata'⟩ := other
  obtain ⟨built, one, first⟩ := firstField_of_fFields flechette _ _ rebuilt
  obtain ⟨rebuiltType, here, same⟩ := Option.map_eq_some_iff.mp first
  obtain ⟨heads, _⟩ := List.cons.inj one
  rw [here]
  exact congrArg some (congrArg FieldOf.type (same.trans heads.symm))

mutual

/-- A supported type is rebuilt, with the standard field for the entries of every map. -/
theorem toFlechetteType_object (spelling : Spelling) : (type : ArrowType) → Supported type →
    toFlechetteType flechette (object spelling type) =
      some (object (.flechette true) (normalised flechette type))
  | .leaf type, supported => by
      rw [object, toFlechetteType, rebuild_leaf flechette spelling type supported]
      rfl
  | .nested kind children, supported => by
      have all := fFields_objects spelling children supported.2
      rw [object, normalised]
      refine rebuild_nested flechette spelling kind children supported.1 _ all ?_
      rintro name key value nullable metadata rfl
      obtain ⟨keyName, keyType, keyNullable, keyMetadata⟩ := key
      obtain ⟨valueName, valueType, valueNullable, valueMetadata⟩ := value
      have struct := type_of_fFields flechette spelling _ _ all
      refine ⟨_, _, name, nullable, metadata, rfl, ?_⟩
      exact fFields_of_struct flechette spelling _ _ struct
  | .dictionary id dictionary indices ordered, supported => by
      have orders : ((dictionaryProperties spelling id ordered).ordered <|>
          (dictionaryProperties spelling id ordered).isOrdered).getD false = ordered := by
        cases spelling <;> rfl
      have ids : (dictionaryProperties spelling id ordered).id = some id := by
        cases spelling <;> rfl
      have typeId : (dictionaryProperties spelling id ordered).typeId = -1 := by
        cases spelling <;> rfl
      rw [object, toFlechetteType, toFlechetteType_object spelling dictionary supported.1,
        toFlechetteType_object spelling indices supported.2]
      simp only [rebuild, typeId, orders, ids, Option.bind_some, Option.map_some,
        flechette.dictionary_eq]
      rfl

theorem fFields_objects (spelling : Spelling) : (children : List (FieldOf ArrowType)) →
    SupportedFields children → fFields flechette (objects spelling children) =
      some (objects (.flechette true) (normalisedFields flechette children))
  | [], _ => rfl
  | ⟨name, type, nullable, metadata⟩ :: rest, supported => by
      rw [objects, fFields, fField, toFlechetteType_object spelling type supported.1,
        fFields_objects spelling rest supported.2]
      rfl

end

/-! ## Normalising once more -/

private theorem takes_entries (kind : NestKind) (children : List (FieldOf ArrowType))
    (takes : kind.Takes children) :
    kind.Takes ((normalisedFields flechette children).map (entriesField flechette kind)) := by
  cases kind with
  | list | largeList | fixedSizeList =>
      obtain ⟨⟨_, _, _, _⟩, rfl⟩ := takes
      exact ⟨_, rfl⟩
  | struct | union => trivial
  | map =>
      obtain ⟨_, ⟨_, _, _, _⟩, ⟨_, _, _, _⟩, _, _, rfl⟩ := takes
      exact ⟨_, _, _, _, _, rfl⟩
  | runEndEncoded | listView | largeListView => exact absurd takes not_false

private theorem supported_entries (kind : NestKind) (children : List (FieldOf ArrowType))
    (supported : SupportedFields children) :
    SupportedFields (children.map (entriesField flechette kind)) := by
  induction children with
  | nil => trivial
  | cons child rest ih =>
      obtain ⟨name, type, nullable, metadata⟩ := child
      refine ⟨?_, ih supported.2⟩
      have here := supported.1
      cases kind <;> exact here

mutual

theorem normalised_supported : (type : ArrowType) → Supported type →
    Supported (normalised flechette type)
  | .leaf _, supported => supported
  | .nested kind children, supported =>
      ⟨takes_entries flechette kind children supported.1,
        supported_entries flechette kind _ (normalisedFields_supported children supported.2)⟩
  | .dictionary _ dictionary indices _, supported =>
      ⟨normalised_supported dictionary supported.1, normalised_supported indices supported.2⟩

theorem normalisedFields_supported : (children : List (FieldOf ArrowType)) →
    SupportedFields children → SupportedFields (normalisedFields flechette children)
  | [], _ => trivial
  | ⟨_, type, _, _⟩ :: rest, supported =>
      ⟨normalised_supported type supported.1, normalisedFields_supported rest supported.2⟩

end

private theorem normalised_entries (kind : NestKind) (children : List (FieldOf ArrowType)) :
    (normalisedFields flechette (children.map (entriesField flechette kind))).map
        (entriesField flechette kind) =
      (normalisedFields flechette children).map (entriesField flechette kind) := by
  induction children with
  | nil => rfl
  | cons child rest ih =>
      obtain ⟨name, type, nullable, metadata⟩ := child
      cases kind <;>
        simpa only [List.map_cons, normalisedFields, entriesField, List.cons.injEq, true_and] using ih

mutual

theorem normalised_idempotent : (type : ArrowType) →
    normalised flechette (normalised flechette type) = normalised flechette type
  | .leaf _ => rfl
  | .nested kind children => by
      rw [normalised, normalised, normalised_entries, normalisedFields_idempotent children]
  | .dictionary _ dictionary indices _ => by
      rw [normalised, normalised, normalised_idempotent dictionary, normalised_idempotent indices]

theorem normalisedFields_idempotent : (children : List (FieldOf ArrowType)) →
    normalisedFields flechette (normalisedFields flechette children) =
      normalisedFields flechette children
  | [] => rfl
  | ⟨_, type, _, _⟩ :: rest => by
      rw [normalisedFields, normalisedFields, normalised_idempotent type,
        normalisedFields_idempotent rest]

end

/-! ## What is kept -/

private theorem entries_kept_iff (spelling : Spelling) (kind : NestKind)
    (children fields : List (FieldOf ArrowType))
    (names : fields.map (fun field => (field.name, field.nullable, field.metadata)) =
      children.map fun child => (child.name, child.nullable, child.metadata)) :
    objects spelling (fields.map (entriesField flechette kind)) = objects spelling children ↔
      (∀ child ∈ children, EntriesStandard flechette kind child) ∧
        objects spelling fields = objects spelling children := by
  induction children generalizing fields with
  | nil =>
      have none : fields = [] := List.map_eq_nil_iff.mp names
      subst none
      simp [objects]
  | cons child rest ih =>
      cases fields with
      | nil => cases names
      | cons field others =>
          obtain ⟨name, type, nullable, metadata⟩ := child
          obtain ⟨name', type', nullable', metadata'⟩ := field
          obtain ⟨here, later⟩ := List.cons.inj names
          cases here
          have tail := ih others later
          cases kind with
          | map keysSorted =>
              simp only [List.map_cons, entriesField, objects, List.cons.injEq, FieldOf.mk.injEq,
                List.forall_mem_cons, EntriesStandard] at tail ⊢
              rw [tail]
              constructor
              · rintro ⟨⟨entriesName, types, entriesNullable, entriesMetadata⟩, standard, same⟩
                exact ⟨⟨⟨entriesName.symm, entriesNullable.symm, entriesMetadata.symm⟩, standard⟩,
                  ⟨trivial, types, trivial, trivial⟩, same⟩
              · rintro ⟨⟨⟨entriesName, entriesNullable, entriesMetadata⟩, standard⟩,
                  ⟨_, types, _, _⟩, same⟩
                exact ⟨⟨entriesName.symm, types, entriesNullable.symm, entriesMetadata.symm⟩,
                  standard, same⟩
          | _ =>
              simp only [List.map_cons, entriesField, objects, List.cons.injEq,
                List.forall_mem_cons, EntriesStandard, true_and] at tail ⊢
              rw [tail]
              tauto

private theorem normalisedFields_names : (children : List (FieldOf ArrowType)) →
    (normalisedFields flechette children).map
        (fun field => (field.name, field.nullable, field.metadata)) =
      children.map fun child => (child.name, child.nullable, child.metadata)
  | [] => rfl
  | ⟨name, _, nullable, metadata⟩ :: rest =>
      congrArg ((name, nullable, metadata) :: ·) (normalisedFields_names rest)

mutual

/-- The type is rebuilt as it was exactly when the entries of its maps are in the field that
the constructor makes. -/
theorem object_normalised_iff (spelling : Spelling) : (type : ArrowType) →
    (object spelling (normalised flechette type) = object spelling type ↔
      StandardMaps flechette type)
  | .leaf _ => ⟨fun _ => trivial, fun _ => rfl⟩
  | .nested kind children => by
      rw [normalised, object, object, TypeObject.parent.injEq, StandardMaps,
        entries_kept_iff flechette spelling kind children _
          (normalisedFields_names flechette children), objects_normalised_iff spelling children]
      simp
  | .dictionary id dictionary indices ordered => by
      rw [normalised, object, object, TypeObject.encoded.injEq, StandardMaps,
        object_normalised_iff spelling dictionary, object_normalised_iff spelling indices]
      simp

theorem objects_normalised_iff (spelling : Spelling) : (children : List (FieldOf ArrowType)) →
    (objects spelling (normalisedFields flechette children) = objects spelling children ↔
      StandardMapFields flechette children)
  | [] => ⟨fun _ => trivial, fun _ => rfl⟩
  | ⟨name, type, nullable, metadata⟩ :: rest => by
      rw [normalisedFields, objects, objects, List.cons.injEq, FieldOf.mk.injEq, StandardMapFields,
        object_normalised_iff spelling type, objects_normalised_iff spelling rest]
      simp

end

/-! ## Signedness -/

end

/-- An integer type answers `isSigned`, with the signedness that flechette keeps. -/
def SignedProperties (type : Properties) : Prop :=
  type.typeId = 2 → ∃ signed, type.isSigned = some signed ∧ type.signed = some signed

mutual

def AnswersSigned : TypeObject → Prop
  | .plain type => SignedProperties type
  | .parent type children => SignedProperties type ∧ ChildrenAnswerSigned children
  | .encoded type dictionary indices =>
      SignedProperties type ∧ AnswersSigned dictionary ∧ AnswersSigned indices

def ChildrenAnswerSigned : List (FieldOf TypeObject) → Prop
  | [] => True
  | ⟨_, type, _, _⟩ :: rest => AnswersSigned type ∧ ChildrenAnswerSigned rest

end

private theorem leaf_answers (type : LeafType) :
    SignedProperties (leafProperties (.flechette true) type) := by
  cases type with
  | int bitWidth signed => exact fun _ => ⟨signed, rfl, rfl⟩
  | _ => exact fun id => by cases id

private theorem nest_answers (kind : NestKind) :
    SignedProperties (nestProperties (.flechette true) kind) := by
  cases kind <;> exact fun id => by cases id

mutual

theorem object_answersSigned : (type : ArrowType) → AnswersSigned (object (.flechette true) type)
  | .leaf type => leaf_answers type
  | .nested kind children => ⟨nest_answers kind, objects_answerSigned children⟩
  | .dictionary _ dictionary indices _ =>
      ⟨fun id => (by cases id), object_answersSigned dictionary, object_answersSigned indices⟩

theorem objects_answerSigned : (children : List (FieldOf ArrowType)) →
    ChildrenAnswerSigned (objects (.flechette true) children)
  | [] => trivial
  | ⟨_, type, _, _⟩ :: rest => ⟨object_answersSigned type, objects_answerSigned rest⟩

end

private theorem alias_leaf (type : LeafType) :
    aliasProperties (leafProperties (.flechette false) type) =
      leafProperties (.flechette true) type := by
  cases type <;> rfl

private theorem alias_nest (kind : NestKind) :
    aliasProperties (nestProperties (.flechette false) kind) =
      nestProperties (.flechette true) kind := by
  cases kind <;> rfl

mutual

/-- A freshly decoded type gets arrow-js's spelling at every depth. -/
theorem aliasIntSigned_object : (type : ArrowType) →
    aliasIntSigned (object (.flechette false) type) = object (.flechette true) type
  | .leaf type => congrArg TypeObject.plain (alias_leaf type)
  | .nested kind children => by
      rw [object, object, aliasIntSigned, alias_nest, normalizeFields_objects children]
  | .dictionary id dictionary indices ordered => by
      rw [object, object, aliasIntSigned, aliasIntSigned_object dictionary,
        aliasIntSigned_object indices]
      rfl

theorem normalizeFields_objects : (children : List (FieldOf ArrowType)) →
    normalizeFields (objects (.flechette false) children) = objects (.flechette true) children
  | [] => rfl
  | ⟨_, type, _, _⟩ :: rest => by
      rw [objects, objects, normalizeFields, aliasIntSigned_object type,
        normalizeFields_objects rest]

end

/-! ## Normalisation -/

/-- A supported type of either library is rebuilt as an equal one, to which rebuilding does
nothing more and all of whose integers answer `isSigned`, exactly when the entries of its maps
are in the field that the constructor makes. -/
theorem type_normalisation_iff (flechette : Flechette) (spelling : Spelling) (type : ArrowType)
    (supported : Supported type) :
    (∃ result, toFlechetteType flechette (object spelling type) = some result ∧
        result = object (.flechette true) type ∧
        toFlechetteType flechette result = some result ∧ AnswersSigned result) ↔
      StandardMaps flechette type := by
  have rebuilt := toFlechetteType_object flechette spelling type supported
  constructor
  · rintro ⟨result, here, same, _⟩
    rw [same, rebuilt] at here
    exact (object_normalised_iff flechette (.flechette true) type).mp (Option.some.inj here)
  · intro standard
    have same := (object_normalised_iff flechette (.flechette true) type).mpr standard
    have again := toFlechetteType_object flechette (.flechette true) type supported
    rw [same] at rebuilt again
    exact ⟨_, rebuilt, rfl, again, object_answersSigned type⟩

/-- The constructors as the library documents them. -/
def documentedFlechette : Flechette where
  nullType := .plain { typeId := 1 }
  bool := .plain { typeId := 6 }
  int bitWidth signed := .plain { typeId := 2, bitWidth := bitWidth, signed := some signed }
  float precision := .plain { typeId := 3, precision := precision }
  utf8 := .plain { typeId := 5 }
  largeUtf8 := .plain { typeId := 20 }
  binary := .plain { typeId := 4 }
  largeBinary := .plain { typeId := 19 }
  fixedSizeBinary stride := .plain { typeId := 15, stride := stride }
  decimal precision scale bitWidth :=
    .plain { typeId := 7, precision := precision, scale := scale, bitWidth := some bitWidth }
  date unit := .plain { typeId := 8, unit := unit }
  time unit :=
    .plain { typeId := 9, unit := unit, bitWidth := unit.map fun unit => if unit < 2 then 32 else 64 }
  timestamp unit timezone := .plain { typeId := 10, unit := unit, timezone := timezone }
  duration unit := .plain { typeId := 18, unit := unit }
  interval unit := .plain { typeId := 11, unit := unit }
  list item := .parent { typeId := 12 } [item]
  largeList item := .parent { typeId := 21 } [item]
  fixedSizeList item stride := .parent { typeId := 16, stride := stride } [item]
  struct fields := .parent { typeId := 13 } fields
  map key value keysSorted :=
    .parent { typeId := 17, keysSorted := some keysSorted }
      [⟨text "entries", .parent { typeId := 13 } [key, value], false, .empty⟩]
  dictionary type indices ordered id :=
    .encoded { typeId := -1, id := id, ordered := some ordered } type indices
  union mode fields typeIds := .parent { typeId := 14, mode := mode, typeIds := typeIds } fields
  entriesName := text "entries"
  entriesNullable := false
  entriesMetadata := .empty
  nullType_eq := rfl
  bool_eq := rfl
  int_eq _ _ _ := rfl
  float_eq _ := rfl
  utf8_eq := rfl
  largeUtf8_eq := rfl
  binary_eq := rfl
  largeBinary_eq := rfl
  fixedSizeBinary_eq _ := rfl
  decimal_eq _ _ _ _ := rfl
  date_eq _ := rfl
  time_eq unit := by cases unit <;> rfl
  timestamp_eq _ _ := rfl
  duration_eq _ := rfl
  interval_eq _ := rfl
  list_eq _ := rfl
  largeList_eq _ := rfl
  fixedSizeList_eq _ _ := rfl
  struct_eq _ := rfl
  map_eq _ _ _ := rfl
  dictionary_eq _ _ _ _ := rfl
  union_eq _ _ _ := rfl

/-- A map from 32-bit integers to texts, its entries in a field of some name. -/
def mapOf (entries : Text) : ArrowType :=
  .nested (.map false) [⟨entries, .nested .struct [⟨text "key", .leaf (.int 32 true), false, .empty⟩,
    ⟨text "value", .leaf .utf8, true, .empty⟩], false, .empty⟩]

private theorem mapOf_supported (entries : Text) : Supported (mapOf entries) := by
  have width : LeafType.Supported (.int 32 true) := by
    change 32 ∈ integerWidths
    decide
  exact ⟨⟨_, _, _, _, _, rfl⟩, ⟨trivial, width, trivial, trivial⟩, trivial⟩

theorem standard_map_normalised :
    ∃ result, toFlechetteType documentedFlechette (object .arrowJs (mapOf (text "entries"))) =
        some result ∧ result = object (.flechette true) (mapOf (text "entries")) ∧
      toFlechetteType documentedFlechette result = some result ∧ AnswersSigned result :=
  (type_normalisation_iff documentedFlechette .arrowJs (mapOf (text "entries"))
    (mapOf_supported _)).mpr
      ⟨fun _ member => (by cases List.mem_singleton.mp member; exact ⟨rfl, rfl, rfl⟩),
        ⟨⟨fun _ _ => trivial, trivial, trivial, trivial⟩, trivial⟩⟩

/-- A map whose entries are in a field `key_value`, as other writers name it. -/
theorem entries_field_renamed :
    ¬∀ (flechette : Flechette) (spelling : Spelling) (type : ArrowType), Supported type →
      ∃ result, toFlechetteType flechette (object spelling type) = some result ∧
        result = object (.flechette true) type ∧
        toFlechetteType flechette result = some result ∧ AnswersSigned result := by
  intro normalises
  obtain ⟨result, rebuilt, rfl, _⟩ := normalises documentedFlechette (.flechette false)
    (mapOf (text "key_value")) (mapOf_supported _)
  have same : object (.flechette true) (mapOf (text "entries")) =
      object (.flechette true) (mapOf (text "key_value")) := Option.some.inj rebuilt
  have names : text "entries" = text "key_value" := by
    injection same with _ fields
    injection fields with field
    injection field
  exact absurd names (by decide)

/-- Rebuilding once is rebuilding twice, and integers answer `isSigned`, for every
supported type. -/
theorem toFlechetteType_idempotent (flechette : Flechette) (spelling : Spelling)
    (type : ArrowType) (supported : Supported type) :
    ∃ result, toFlechetteType flechette (object spelling type) = some result ∧
      toFlechetteType flechette result = some result ∧ AnswersSigned result := by
  refine ⟨_, toFlechetteType_object flechette spelling type supported, ?_,
    object_answersSigned _⟩
  rw [toFlechetteType_object flechette _ _ (normalised_supported flechette type supported),
    normalised_idempotent]

end VgiWorker.Arrow.Library
