import Mathlib.Data.List.ReduceOption
import VgiWorker.Arrow.Codec
import VgiWorker.Data.AliasedEntries
import VgiWorker.Data.Result

/-!
# The secrets of a one-row batch

One struct column for each secret, named by its type or, for a scoped secret,
`secret_N` with the type and the scope in its metadata.
-/

set_option autoImplicit false

namespace VgiWorker.Arrow.SecretDict

open VgiWorker.Js VgiWorker.AliasedEntries

abbrev Fields := List (Text × Rich)

abbrev SecretRecord := List (Text × Fields)

/-- The names that `in` finds in every object. -/
def objectMembers : List Text :=
  ["__proto__", "__defineGetter__", "__defineSetter__", "__lookupGetter__", "__lookupSetter__",
    "constructor", "hasOwnProperty", "isPrototypeOf", "propertyIsEnumerable", "toLocaleString",
    "toString", "valueOf"].map text

/-- `result[key] = value`; a member `__proto__` is not made. -/
def assign (result : SecretRecord) (key : Text) (value : Fields) : SecretRecord :=
  if key = text "__proto__" then result else setEntry result key value

/-- `{ ...value }` of an object; `none` for what is no object or a view of a buffer. -/
def spread : Rich → Option Fields
  | .object entries => some entries
  | .array elements =>
      some (elements.zipIdx.map fun element => (Number.decimalInt element.2, element.1))
  | .date _ => some []
  | _ => none

/-- The key of a secret column, and the scope of a scoped one. -/
def secretKey (field : Field) : Text × Option Text :=
  let secretType :=
    if (text "secret_").isPrefixOf field.name then field.metadata.get? (text "secret_type")
    else none
  match secretType with
  | some (unit :: rest) => (unit :: rest, field.metadata.get? (text "scope"))
  | _ => (field.name, none)

def qualifiedKey (key scope : Text) : Text :=
  key ++ text ":" ++ scope

/-- The keys beside its type that a secret is stored under: an empty scope is none. -/
def scopeKeys (key : Text) : Option Text → List Text
  | some (unit :: rest) => [qualifiedKey key (unit :: rest)]
  | _ => []

section

variable (duplicate : Text → Option Text → Text) (dateText : Number → Text)

def addSecret (result : SecretRecord) (field : Field) (value : Rich) :
    Except Text SecretRecord :=
  let (key, scope) := secretKey field
  match spread value with
  | some dict =>
      if key ∈ objectMembers ∨ (lookupEntry result key).isSome then .error (duplicate key scope)
      else .ok ((scopeKeys key scope).foldl (fun result qualified => assign result qualified dict)
        (assign result key dict))
  | none => .ok (if isRichNull value then result else assign result key [])

def readSecret (field : Field) (column : Column) : Except Text Rich :=
  (canonicalToRich dateText field.type (readCanonicalValue column 0)).mapError codecMessage

def addSecrets (batch : Batch) : SecretRecord → List Field → Except Text SecretRecord
  | result, [] => .ok result
  | result, field :: rest =>
      match batch.getChild field.name with
      | none => addSecrets batch result rest
      | some column => do
          let value ← readSecret dateText field column
          let result ← addSecret duplicate result field value
          addSecrets batch result rest

def batchToSecretDict (batch : Option Batch) : Except Text SecretRecord :=
  match batch with
  | none => .ok []
  | some batch =>
      if batch.numRows = 0 then .ok [] else addSecrets duplicate dateText batch [] batch.schema.fields

end

def duplicateSecret (key : Text) (scope : Option Text) : Text :=
  text "batchToSecretDict: duplicate secret_type '" ++ key ++ text "' (scope=" ++
    scope.getD (text "none") ++ text ")."

/-- `batchToSecretDict` of the arrow-js backend. -/
def batchToSecretDictArrowJs : (Number → Text) → Option Batch → Except Text SecretRecord :=
  batchToSecretDict fun key scope => duplicateSecret key scope ++
    text " Use scoped secrets with distinct scopes to avoid collisions."

/-- `batchToSecretDict` of the flechette backend. -/
def batchToSecretDictFlechette : (Number → Text) → Option Batch → Except Text SecretRecord :=
  batchToSecretDict duplicateSecret

/-! ## The secrets that the columns hold -/

abbrev Secret := Aliased Text Fields

/-- The secret of a column with this value. -/
def secretOf (field : Field) (value : Rich) : Option Secret :=
  (spread value).map fun dict =>
    ⟨(secretKey field).1, scopeKeys (secretKey field).1 (secretKey field).2, dict⟩

/-- One row with a struct column for each field. -/
structure SecretsBatch (batch : Batch) : Prop where
  row : batch.numRows = 1
  columns : batch.columns.length = batch.schema.fields.length
  structs : ∀ field ∈ batch.schema.fields, ∃ children, field.type = .struct children

def columnSecret (dateText : Number → Text) (entry : Field × Column) :
    Except Text (Option Secret) := do
  let value ← readSecret dateText entry.1 entry.2
  .ok (secretOf entry.1 value)

/-- The secrets of the columns that are not null. -/
def columnSecrets (dateText : Number → Text) (batch : Batch) : Except Text (List Secret) := do
  let secrets ← (batch.schema.fields.zip batch.columns).mapM (columnSecret dateText)
  .ok secrets.reduceOption

/-- The secret of the column that a field's name leads to. -/
def namedSecret (dateText : Number → Text) (batch : Batch) (field : Field) :
    Except Text (Option Secret) :=
  match batch.getChild field.name with
  | none => .ok none
  | some column => columnSecret dateText (field, column)

/-- The secrets as the columns are looked up by their names. -/
def namedSecrets (dateText : Number → Text) (batch : Batch) : Except Text (List Secret) := do
  let secrets ← batch.schema.fields.mapM (namedSecret dateText batch)
  .ok secrets.reduceOption

/-- Every secret is found under its keys with its own fields. -/
def Keeps (secrets : List Secret) (outcome : Except Text SecretRecord) : Prop :=
  ∃ result, outcome = .ok result ∧
    ∀ secret ∈ secrets, ∀ key ∈ secret.keys, lookupEntry result key = some secret.value

/-- The secrets of the columns are kept by both backends. -/
def SecretsKept (dateText : Number → Text) (batch : Batch) : Prop :=
  ∃ secrets, columnSecrets dateText batch = .ok secrets ∧
    Keeps secrets (batchToSecretDictArrowJs dateText (some batch)) ∧
    Keeps secrets (batchToSecretDictFlechette dateText (some batch))

/-- No secret has the type of an earlier one or the key of its scope, and secrets share a key with
equal fields only. -/
structure Apart (secrets : List Secret) : Prop extends Free objectMembers secrets where
  shares : secrets.Pairwise fun earlier later =>
    ∀ key ∈ later.keys, key ∈ earlier.keys → later.value = earlier.value

/-- What the columns read as by name is stored, and each secret is the last under its keys. -/
def NamedApart (dateText : Number → Text) (batch : Batch) (secrets : List Secret) : Prop :=
  ∃ named, namedSecrets dateText batch = .ok named ∧ Free objectMembers named ∧
    ∀ secret ∈ secrets, ∀ key ∈ secret.keys, lastStored named key = some secret.value

private theorem assign_eq (result : SecretRecord) (key : Text) (value : Fields)
    (plain : key ≠ text "__proto__") : assign result key value = setEntry result key value :=
  if_neg plain

private theorem scopeKeys_plain (key : Text) (scope : Option Text) (qualified : Text)
    (member : qualified ∈ scopeKeys key scope) : qualified ≠ text "__proto__" := by
  intro same
  have colon : (58 : CodeUnit) ∈ qualified := by
    unfold scopeKeys at member
    split at member
    · rw [List.mem_singleton.mp member, qualifiedKey]
      simp [show text ":" = [58] from by decide +kernel]
    · cases member
  rw [same] at colon
  revert colon
  decide +kernel

private theorem foldl_assign (keys : List Text) (result : SecretRecord) (value : Fields)
    (plain : ∀ key ∈ keys, key ≠ text "__proto__") :
    keys.foldl (fun result key => assign result key value) result = putAll result keys value := by
  induction keys generalizing result with
  | nil => rfl
  | cons key rest ih =>
      rw [putAll, List.foldl_cons, List.foldl_cons, assign_eq _ _ _ (plain key List.mem_cons_self),
        ih _ fun other member => plain other (List.mem_cons_of_mem _ member), putAll]

section

variable (duplicate : Text → Option Text → Text) (dateText : Number → Text)

/-- One column of a secrets batch: a null is passed over, a struct is stored under its keys. -/
private theorem addSecret_eq (result : SecretRecord) (field : Field) (value : Rich)
    (struct : value = .null ∨ ∃ entries, value = .object entries) :
    addSecret duplicate result field value =
      match secretOf field value with
      | none => .ok result
      | some secret =>
          if secret.key ∈ objectMembers ∨ (lookupEntry result secret.key).isSome then
            .error (duplicate (secretKey field).1 (secretKey field).2)
          else .ok (putAll result secret.keys secret.value) := by
  rcases struct with rfl | ⟨entries, rfl⟩
  · rfl
  · simp only [addSecret, secretOf, spread, Option.map_some]
    split
    · rfl
    · rename_i free
      have plain : (secretKey field).1 ≠ text "__proto__" := fun same =>
        free (.inl (same ▸ List.mem_cons_self))
      rw [assign_eq _ _ _ plain, foldl_assign _ _ _ (scopeKeys_plain _ _)]
      rfl

private theorem readSecret_struct (field : Field) (column : Column) (value : Rich)
    (struct : ∃ children, field.type = .struct children)
    (reads : readSecret dateText field column = .ok value) :
    value = .null ∨ ∃ entries, value = .object entries := by
  obtain ⟨children, isStruct⟩ := struct
  have reads := (except_mapError_ok _ _ _).mp reads
  rw [isStruct, canonicalToRich] at reads
  split at reads
  · cases reads
    exact .inl rfl
  · obtain ⟨members, _, made⟩ := except_bind_ok _ _ _ reads
    cases made
    exact .inr ⟨_, rfl⟩

private theorem mapM_behind {α : Type} (first : α) (rest : Except Text (List α))
    (holds : List α → Prop) :
    (∃ results, (do let others ← rest; pure (first :: others)) = .ok results ∧ holds results) ↔
      ∃ others, rest = .ok others ∧ holds (first :: others) := by
  constructor
  · rintro ⟨results, made, held⟩
    obtain ⟨others, isRest, made⟩ := except_bind_ok _ _ _ made
    cases made
    exact ⟨others, isRest, held⟩
  · rintro ⟨others, isRest, held⟩
    exact ⟨first :: others, by rw [isRest]; rfl, held⟩

private theorem addSecrets_iff (batch : Batch) (fields : List Field)
    (structs : ∀ field ∈ fields, ∃ children, field.type = .struct children)
    (result final : SecretRecord) :
    addSecrets duplicate dateText batch result fields = .ok final ↔
      ∃ secrets, fields.mapM (namedSecret dateText batch) = .ok secrets ∧
        storeAll objectMembers result secrets.reduceOption = some final := by
  induction fields generalizing result with
  | nil =>
      constructor
      · intro added
        cases added
        exact ⟨[], rfl, rfl⟩
      · rintro ⟨secrets, read, stored⟩
        cases read
        cases stored
        rfl
  | cons field rest ih =>
      have ih := ih fun other member => structs other (List.mem_cons_of_mem _ member)
      rw [addSecrets, List.mapM_cons, namedSecret]
      cases batch.getChild field.name with
      | none =>
          simp only [except_ok_bind, ih]
          exact (mapM_behind none (rest.mapM (namedSecret dateText batch))
            fun secrets => storeAll objectMembers result secrets.reduceOption = some final).symm
      | some column =>
          simp only [columnSecret]
          cases reads : readSecret dateText field column with
          | error fault => 
              constructor
              · intro made
                cases made
              · rintro ⟨_, read, _⟩
                cases read
          | ok value =>
              have struct := readSecret_struct dateText field column value
                (structs field List.mem_cons_self) reads
              simp only [except_ok_bind, addSecret_eq duplicate result field value struct]
              rw [mapM_behind (secretOf field value)
                (rest.mapM (namedSecret dateText batch))
                fun secrets => storeAll objectMembers result secrets.reduceOption = some final]
              cases secretOf field value with
              | none => exact ih result
              | some secret =>
                  simp only [List.reduceOption_cons_of_some, storeAll]
                  split
                  · constructor
                    · intro made
                      cases made
                    · rintro ⟨_, _, stored⟩
                      cases stored
                  · exact ih _

private theorem keeps_iff (batch : Batch) (isSecrets : SecretsBatch batch)
    (secrets : List Secret) :
    Keeps secrets (batchToSecretDict duplicate dateText (some batch)) ↔
      NamedApart dateText batch secrets := by
  have row : ¬ batch.numRows = 0 := by
    rw [isSecrets.row]
    exact Nat.one_ne_zero
  rw [batchToSecretDict, if_neg row]
  constructor
  · rintro ⟨result, added, found⟩
    obtain ⟨named, read, stored⟩ :=
      (addSecrets_iff duplicate dateText batch _ isSecrets.structs [] result).mp added
    obtain ⟨free, _⟩ := (storeAll_isSome_iff _ _ _).mp ⟨result, stored⟩
    refine ⟨named.reduceOption, by rw [namedSecrets, read]; rfl, free, fun secret member key isKey => ?_⟩
    have held := found secret member key isKey
    rw [lookupEntry_storeAll _ _ _ _ stored, lookupEntry, Option.or_none] at held
    exact held
  · rintro ⟨named, read, free, own⟩
    obtain ⟨secretsRead, isRead, made⟩ := except_bind_ok _ _ _ read
    cases made
    obtain ⟨result, stored⟩ := (storeAll_isSome_iff objectMembers [] _).mpr ⟨free, fun _ _ => rfl⟩
    refine ⟨result, (addSecrets_iff duplicate dateText batch _ isSecrets.structs [] result).mpr
      ⟨secretsRead, isRead, stored⟩, fun secret member key isKey => ?_⟩
    rw [lookupEntry_storeAll _ _ _ _ stored, lookupEntry, Option.or_none]
    exact own secret member key isKey

/-- Under distinct names each column is read as itself. -/
private theorem namedSecrets_eq (batch : Batch) (isSecrets : SecretsBatch batch)
    (distinct : (batch.schema.fields.map FieldOf.name).Nodup) :
    namedSecrets dateText batch = columnSecrets dateText batch := by
  have fields : (batch.schema.fields.zip batch.columns).map Prod.fst = batch.schema.fields :=
    List.map_fst_zip (Nat.le_of_eq isSecrets.columns.symm)
  have same : batch.schema.fields.mapM (namedSecret dateText batch) =
      (batch.schema.fields.zip batch.columns).mapM (columnSecret dateText) := by
    conv_lhs => rw [← fields]
    rw [List.mapM_map]
    refine except_mapM_congr _ _ _ fun entry member => ?_
    obtain ⟨position, here⟩ := List.mem_iff_getElem?.mp member
    obtain ⟨isField, isColumn⟩ := List.getElem?_zip_eq_some.mp here
    rw [Function.comp_apply, namedSecret, getChild_nodup batch distinct position entry.1 isField,
      isColumn]
  rw [namedSecrets, same, columnSecrets]

private theorem namedApart_iff (batch : Batch) (isSecrets : SecretsBatch batch)
    (distinct : (batch.schema.fields.map FieldOf.name).Nodup) (secrets : List Secret)
    (held : columnSecrets dateText batch = .ok secrets) :
    NamedApart dateText batch secrets ↔ Apart secrets := by
  rw [NamedApart, namedSecrets_eq dateText batch isSecrets distinct, held]
  constructor
  · rintro ⟨named, same, free, own⟩
    cases same
    exact ⟨free, (lastStored_own_iff secrets).mp own⟩
  · rintro ⟨free, shares⟩
    exact ⟨secrets, rfl, free, (lastStored_own_iff secrets).mpr shares⟩

/-- The secrets of the columns are kept exactly when no column reads as a type that is taken and
each is the last under its keys; with distinct names, exactly when the secrets are apart. -/
theorem secrets_kept_iff (batch : Batch) (isSecrets : SecretsBatch batch) :
    (SecretsKept dateText batch ↔
      ∃ secrets, columnSecrets dateText batch = .ok secrets ∧ NamedApart dateText batch secrets) ∧
    ((batch.schema.fields.map FieldOf.name).Nodup → (SecretsKept dateText batch ↔
      ∃ secrets, columnSecrets dateText batch = .ok secrets ∧ Apart secrets)) := by
  have kept : SecretsKept dateText batch ↔
      ∃ secrets, columnSecrets dateText batch = .ok secrets ∧
        NamedApart dateText batch secrets := by
    refine exists_congr fun secrets => and_congr_right fun _ => ?_
    rw [batchToSecretDictArrowJs, batchToSecretDictFlechette, keeps_iff _ dateText batch isSecrets,
      keeps_iff _ dateText batch isSecrets, and_self]
  refine ⟨kept, fun distinct => kept.trans ?_⟩
  exact exists_congr fun secrets => and_congr_right
    (namedApart_iff dateText batch isSecrets distinct secrets)

end

private def tokenType : DataType :=
  .struct [⟨text "token", .utf8, true, .empty⟩]

private def token (value : String) : Value :=
  .object [(text "token", .string (text value))]

private def scopedField (name secretType scope : String) : Field :=
  ⟨text name, tokenType, true,
    OrderedMap.ofEntries [(text "secret_type", text secretType), (text "scope", text scope)]⟩

/-- A scoped secret, an unscoped one, and one that was not found. -/
private def apartBatch : Batch :=
  ⟨⟨[scopedField "secret_0" "s3" "s3://a", ⟨text "http", tokenType, true, .empty⟩,
      scopedField "secret_1" "s3" "s3://b"], .empty⟩,
    [[token "x"], [token "y"], [.null]], 1, none⟩

theorem secrets_kept_sample : SecretsKept (fun _ => []) apartBatch := by
  have isSecrets : SecretsBatch apartBatch := ⟨rfl, rfl, by simp [apartBatch, scopedField, tokenType]⟩
  refine ((secrets_kept_iff (fun _ => []) apartBatch isSecrets).2 (by decide +kernel)).mpr
    ⟨_, rfl, ⟨⟨?_, ?_⟩, ?_⟩⟩
  · decide +kernel
  · decide +kernel
  · refine .cons ?_ (.cons nofun .nil)
    intro later member key named shared
    obtain rfl := List.mem_singleton.mp member
    refine absurd shared ?_
    clear shared
    revert key
    decide +kernel

/-- Two secrets of one type with distinct scopes. -/
private def scopedBatch : Batch :=
  ⟨⟨[scopedField "secret_0" "s3" "s3://a", scopedField "secret_1" "s3" "s3://b"], .empty⟩,
    [[token "x"], [token "y"]], 1, none⟩

/-- Secrets of one type fail the bind, though their scopes are distinct. -/
theorem distinct_scopes_collide :
    SecretsBatch scopedBatch ∧ (scopedBatch.schema.fields.map secretKey).Nodup ∧
      batchToSecretDictArrowJs (fun _ => []) (some scopedBatch) =
        .error (duplicateSecret (text "s3") (some (text "s3://b")) ++
          text " Use scoped secrets with distinct scopes to avoid collisions.") ∧
      batchToSecretDictFlechette (fun _ => []) (some scopedBatch) =
        .error (duplicateSecret (text "s3") (some (text "s3://b"))) :=
  ⟨⟨rfl, rfl, by simp [scopedBatch, scopedField, tokenType]⟩, by decide +kernel, rfl, rfl⟩

end VgiWorker.Arrow.SecretDict
