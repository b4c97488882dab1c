import VgiWorker.Data.UnambiguousCodes
import VgiWorker.Js.Bytes
import VgiWorker.Js.NumberProperties

/-!
# The digest of the catalog contents

The bytes that the `content-hash` etag is a SHA-256 of: every count is written in eight
bytes, every byte string stands behind its length, and a stream behind a mark of its presence.
-/

set_option autoImplicit false

namespace VgiWorker.Catalog.Contents

open VgiWorker.Js VgiWorker.UnambiguousCodes

/-- The bytes of a `Uint8Array`, whose length is a safe integer. -/
structure Uint8Array where
  bytes : Bytes
  safe : bytes.length ≤ Number.maxSafeInteger

inductive StreamKind where
  | schemas
  | tables
  | views
  | functions
  | macros
  | indexes
  deriving DecidableEq

def catalogStreamKinds : List StreamKind :=
  [.schemas, .tables, .views, .functions, .macros, .indexes]

structure CatalogStreams where
  schemas : Option Uint8Array
  tables : Option Uint8Array
  views : Option Uint8Array
  functions : Option Uint8Array
  macros : Option Uint8Array
  indexes : Option Uint8Array

def CatalogStreams.stream (streams : CatalogStreams) : StreamKind → Option Uint8Array
  | .schemas => streams.schemas
  | .tables => streams.tables
  | .views => streams.views
  | .functions => streams.functions
  | .macros => streams.macros
  | .indexes => streams.indexes

/-- One schema of a legacy inventory, with the items of each kind. -/
structure SchemaContents where
  path : List Text
  schema : Uint8Array
  tables : List Uint8Array
  views : List Uint8Array
  scalarFunctions : List Uint8Array
  aggregateFunctions : List Uint8Array
  tableFunctions : List Uint8Array
  scalarMacros : List Uint8Array
  tableMacros : List Uint8Array
  indexes : List Uint8Array

def SchemaContents.kinds (entry : SchemaContents) : List (List Uint8Array) :=
  [entry.tables, entry.views, entry.scalarFunctions, entry.aggregateFunctions,
    entry.tableFunctions, entry.scalarMacros, entry.tableMacros, entry.indexes]

/-! ## What is hashed -/

/-- `setBigUint64`, little-endian, which keeps the low 64 bits. -/
def count (value : Int) : Bytes :=
  leBytes 8 (value % 2 ^ 64).toNat

def chunk (data : Bytes) : Bytes :=
  count data.length ++ data

def chunks (values : List Bytes) : Bytes :=
  count values.length ++ values.flatMap chunk

def streamPart : Option Uint8Array → Bytes
  | none => count 0
  | some value => count 1 ++ chunk value.bytes

def streamsInput (streams : CatalogStreams) (version : Int) : Bytes :=
  chunk (utf8Encode (text "vgi.catalog-contents.2.2")) ++ count version ++
    catalogStreamKinds.flatMap fun kind => streamPart (streams.stream kind)

def entryInput (entry : SchemaContents) : Bytes :=
  chunks (entry.path.map utf8Encode) ++ chunk entry.schema.bytes ++
    entry.kinds.flatMap fun kind => chunks (kind.map Uint8Array.bytes)

def inventoryInput (entries : List SchemaContents) : Bytes :=
  count entries.length ++ entries.flatMap entryInput

inductive Snapshot where
  | streams (streams : CatalogStreams)
  | inventory (entries : List SchemaContents)

/-- The bytes fed to SHA-256; `BigInt` throws on a version that is no integer. -/
def digestInput (snapshot : Snapshot) (version : Number) : Option Bytes :=
  match snapshot with
  | .inventory entries => some (inventoryInput entries)
  | .streams streams => version.toInt?.map (streamsInput streams)

def catalogContentsDigest (sha256 : Bytes → Bytes) (snapshot : Snapshot) (version : Number) :
    Option Text :=
  (digestInput snapshot version).map fun input => (sha256 input).flatMap hexByte

/-! ## Reading it back -/

private theorem count_eq (value : Nat) (bound : value < 2 ^ 64) : count value = leBytes 8 value := by
  have small : ((value : Int) % 2 ^ 64).toNat = value := by omega
  rw [count, small]

theorem unambiguous_count : Unambiguous (fun value : Nat => value < 2 ^ 64)
    (fun value => count (value : Int)) := by
  refine unambiguous_of_width 8 (fun value _ => length_leBytes 8 _) ?_
  intro left right leftBound rightBound same
  have values := congrArg leValue same
  rwa [count_eq left leftBound, count_eq right rightBound, leValue_leBytes_of_lt 8 left leftBound,
    leValue_leBytes_of_lt 8 right rightBound] at values

theorem unambiguous_chunk : Unambiguous (fun data : Bytes => data.length < 2 ^ 64) chunk :=
  unambiguous_behind_length unambiguous_count

theorem unambiguous_chunks : Unambiguous
    (fun values : List Bytes => values.length < 2 ^ 64 ∧ ∀ data ∈ values, data.length < 2 ^ 64)
    chunks :=
  unambiguous_chunk.counted unambiguous_count

theorem Uint8Array.length_lt (data : Uint8Array) : data.bytes.length < 2 ^ 64 := by
  have safe := data.safe
  rw [Number.maxSafeInteger] at safe
  omega

theorem Uint8Array.eq_of_bytes (left right : Uint8Array) (same : left.bytes = right.bytes) :
    left = right := by
  cases left with
  | mk bytes safe =>
      cases right with
      | mk bytes' safe' =>
          cases same
          rfl

private theorem hexDigit_inj (left right : Nat) (leftSmall : left < 16) (rightSmall : right < 16)
    (same : hexDigit left = hexDigit right) : left = right := by
  have all : ∀ left right : Fin 16, hexDigit left = hexDigit right → left = right := by decide
  exact congrArg Fin.val (all ⟨left, leftSmall⟩ ⟨right, rightSmall⟩ same)

private theorem unambiguous_hexByte : Unambiguous (fun _ : UInt8 => True) hexByte := by
  refine unambiguous_of_width 2 (fun _ _ => rfl) ?_
  intro left right _ _ same
  have leftSmall := left.toNat_lt
  have rightSmall := right.toNat_lt
  obtain ⟨high, low⟩ := List.cons.inj same
  have high := hexDigit_inj _ _ (by omega) (by omega) high
  have low := hexDigit_inj _ _ (by omega) (by omega) (List.cons.inj low).1
  exact UInt8.toNat.inj (by omega)

theorem hex_inj (left right : Bytes) (same : left.flatMap hexByte = right.flatMap hexByte) :
    left = right :=
  unambiguous_hexByte.flatMap_inj nofun left right (fun _ _ => trivial) (fun _ _ => trivial) same

private theorem unambiguous_bytes :
    Unambiguous (fun _ : Uint8Array => True) (fun data => chunk data.bytes) := by
  intro left right rest rest' _ _ same
  obtain ⟨bytes, rests⟩ := unambiguous_chunk left.bytes right.bytes rest rest' left.length_lt
    right.length_lt same
  exact ⟨left.eq_of_bytes right bytes, rests⟩

private theorem unambiguous_streamPart : Unambiguous (fun _ => True) streamPart := by
  have parts := unambiguous_optional (count 0) (count 1) (by decide) (by decide) unambiguous_bytes
  intro left right rest rest' _ _ same
  have shape : streamPart = optional (count 0) (count 1) fun data : Uint8Array =>
      chunk data.bytes := by
    funext part
    cases part with
    | none => rfl
    | some data => rfl
  rw [shape] at same
  exact parts left right rest rest' (fun _ _ => trivial) (fun _ _ => trivial) same

private theorem streams_eq (left right : CatalogStreams)
    (same : ∀ kind, left.stream kind = right.stream kind) : left = right := by
  cases left with
  | mk schemas tables views functions macros indexes =>
      cases right with
      | mk schemas' tables' views' functions' macros' indexes' =>
          have schemas : schemas = schemas' := same .schemas
          have tables : tables = tables' := same .tables
          have views : views = views' := same .views
          have functions : functions = functions' := same .functions
          have macros : macros = macros' := same .macros
          have indexes : indexes = indexes' := same .indexes
          rw [schemas, tables, views, functions, macros, indexes]

theorem streamsInput_inj (left right : CatalogStreams) (leftVersion rightVersion : Nat)
    (leftBound : leftVersion < 2 ^ 64) (rightBound : rightVersion < 2 ^ 64)
    (same : streamsInput left leftVersion = streamsInput right rightVersion) :
    leftVersion = rightVersion ∧ left = right := by
  unfold streamsInput at same
  rw [List.append_assoc, List.append_assoc] at same
  obtain ⟨versions, streams⟩ := unambiguous_count leftVersion rightVersion _ _ leftBound rightBound
    (List.append_cancel_left same)
  obtain ⟨kinds, _⟩ := unambiguous_streamPart.by_key catalogStreamKinds left.stream right.stream
    (fun _ _ => trivial) (fun _ _ => trivial) [] [] (by rw [streams])
  refine ⟨versions, streams_eq left right fun kind => kinds kind ?_⟩
  cases kind <;> decide

/-! ## Inventories -/

/-- The counts of the entry fit into eight bytes. -/
structure SchemaContents.Countable (entry : SchemaContents) : Prop where
  path : entry.path.length < 2 ^ 64
  parts : ∀ part ∈ entry.path, (utf8Encode part).length < 2 ^ 64
  kinds : ∀ kind ∈ entry.kinds, kind.length < 2 ^ 64

/-- The same items, and paths that are the same in UTF-8. -/
structure SchemaContents.Alike (left right : SchemaContents) : Prop where
  path : left.path.map utf8Encode = right.path.map utf8Encode
  schema : left.schema = right.schema
  kinds : left.kinds = right.kinds

private theorem kinds_parts (items : List Uint8Array) (few : items.length < 2 ^ 64) :
    (items.map Uint8Array.bytes).length < 2 ^ 64 ∧
      ∀ data ∈ items.map Uint8Array.bytes, data.length < 2 ^ 64 := by
  refine ⟨by rwa [List.length_map], fun data member => ?_⟩
  obtain ⟨item, _, rfl⟩ := List.mem_map.mp member
  exact item.length_lt

private theorem map_bytes_inj (left right : List Uint8Array)
    (same : left.map Uint8Array.bytes = right.map Uint8Array.bytes) : left = right :=
  List.map_injective_iff.mpr (fun left right => left.eq_of_bytes right) same

private theorem path_parts (entry : SchemaContents) (countable : entry.Countable) :
    (entry.path.map utf8Encode).length < 2 ^ 64 ∧
      ∀ data ∈ entry.path.map utf8Encode, data.length < 2 ^ 64 := by
  refine ⟨by rw [List.length_map]; exact countable.path, fun data member => ?_⟩
  obtain ⟨part, present, rfl⟩ := List.mem_map.mp member
  exact countable.parts part present

theorem entryInput_cut (left right : SchemaContents) (leftCountable : left.Countable)
    (rightCountable : right.Countable) (rest rest' : Bytes)
    (same : entryInput left ++ rest = entryInput right ++ rest') :
    left.Alike right ∧ rest = rest' := by
  unfold entryInput at same
  simp only [List.append_assoc] at same
  obtain ⟨paths, behindPath⟩ := unambiguous_chunks _ _ _ _ (path_parts left leftCountable)
    (path_parts right rightCountable) same
  obtain ⟨schemas, behindSchema⟩ := unambiguous_bytes left.schema right.schema _ _ trivial trivial
    behindPath
  have eachKind : Unambiguous (fun items : List Uint8Array => items.length < 2 ^ 64)
      (fun items => chunks (items.map Uint8Array.bytes)) := by
    intro left right rest rest' leftFew rightFew same
    obtain ⟨items, rests⟩ := unambiguous_chunks _ _ _ _ (kinds_parts left leftFew)
      (kinds_parts right rightFew) same
    exact ⟨map_bytes_inj left right items, rests⟩
  obtain ⟨kinds, rests⟩ := eachKind.row left.kinds right.kinds rfl leftCountable.kinds
    rightCountable.kinds _ _ behindSchema
  exact ⟨⟨paths, schemas, kinds⟩, rests⟩

/-- The digest of a legacy inventory tells two of them apart as far as their paths survive
UTF-8. -/
theorem inventoryInput_alike (left right : List SchemaContents) (leftFew : left.length < 2 ^ 64)
    (rightFew : right.length < 2 ^ 64) (leftCountable : ∀ entry ∈ left, entry.Countable)
    (rightCountable : ∀ entry ∈ right, entry.Countable)
    (same : inventoryInput left = inventoryInput right) :
    List.Forall₂ SchemaContents.Alike left right := by
  obtain ⟨length, entries⟩ := unambiguous_count left.length right.length _ _ leftFew rightFew same
  clear same leftFew rightFew
  induction left generalizing right with
  | nil =>
      cases right with
      | nil => exact .nil
      | cons other right => cases length
  | cons entry left ih =>
      cases right with
      | nil => cases length
      | cons other right =>
          obtain ⟨alike, others⟩ := entryInput_cut entry other
            (leftCountable entry List.mem_cons_self) (rightCountable other List.mem_cons_self) _ _
            entries
          exact .cons alike (ih right (fun entry member => leftCountable entry (.tail _ member))
            (fun entry member => rightCountable entry (.tail _ member)) (Nat.succ.inj length) others)

/-! ## The etag -/

/-- A safe integer that is not negative. -/
structure CatalogVersion where
  number : Number
  safe : number.isSafeInteger = true
  nonnegative : number.less .zero = false

theorem CatalogVersion.toInt? (version : CatalogVersion) :
    ∃ value : Nat, version.number.toInt? = some (value : Int) ∧ value < 2 ^ 64 ∧
      version.number.toRat? = some (value : ℚ) := by
  obtain ⟨number, safe, nonnegative⟩ := version
  dsimp only
  unfold Number.isSafeInteger at safe
  cases integral : number.toInt? with
  | none =>
      rw [integral] at safe
      cases safe
  | some value =>
      rw [integral] at safe
      have small := of_decide_eq_true safe
      rw [Number.maxSafeInteger] at small
      have exact := (Number.toInt?_eq_some number value).mp integral
      rw [Number.less_eq number .zero value 0 exact rfl] at nonnegative
      have atLeast : (0 : ℚ) ≤ value := not_lt.mp (of_decide_eq_false nonnegative)
      have atLeast : 0 ≤ value := by exact_mod_cast atLeast
      obtain ⟨size, rfl⟩ := Int.eq_ofNat_of_zero_le atLeast
      exact ⟨size, rfl, by omega, by simpa using exact⟩

/-- Two inputs that SHA-256 does not tell apart. -/
def Collides (sha256 : Bytes → Bytes) (left right : Option Bytes) : Prop :=
  ∃ leftInput rightInput, left = some leftInput ∧ right = some rightInput ∧
    leftInput ≠ rightInput ∧ sha256 leftInput = sha256 rightInput

/-- Inputs are equal only for equal versions and equal streams, and etags then as well, unless
SHA-256 collides. -/
theorem digest_separates (sha256 : Bytes → Bytes) (left right : CatalogStreams)
    (leftVersion rightVersion : CatalogVersion) :
    (digestInput (.streams left) leftVersion.number =
        digestInput (.streams right) rightVersion.number ↔
      leftVersion.number.strictEq rightVersion.number = true ∧ left = right) ∧
    (catalogContentsDigest sha256 (.streams left) leftVersion.number =
        catalogContentsDigest sha256 (.streams right) rightVersion.number ↔
      (leftVersion.number.strictEq rightVersion.number = true ∧ left = right) ∨
        Collides sha256 (digestInput (.streams left) leftVersion.number)
          (digestInput (.streams right) rightVersion.number)) := by
  obtain ⟨leftValue, leftIntegral, leftBound, leftExact⟩ := leftVersion.toInt?
  obtain ⟨rightValue, rightIntegral, rightBound, rightExact⟩ := rightVersion.toInt?
  have leftInput : digestInput (.streams left) leftVersion.number =
      some (streamsInput left leftValue) := by simp [digestInput, leftIntegral]
  have rightInput : digestInput (.streams right) rightVersion.number =
      some (streamsInput right rightValue) := by simp [digestInput, rightIntegral]
  have versions : leftVersion.number.strictEq rightVersion.number = true ↔
      leftValue = rightValue := by
    rw [Number.strictEq_eq _ _ _ _ leftExact rightExact, decide_eq_true_iff]
    exact Nat.cast_inj
  have inputs : streamsInput left leftValue = streamsInput right rightValue ↔
      leftVersion.number.strictEq rightVersion.number = true ∧ left = right := by
    rw [versions]
    constructor
    · exact streamsInput_inj left right leftValue rightValue leftBound rightBound
    · intro same
      rw [same.1, same.2]
  refine ⟨by rw [leftInput, rightInput, Option.some_inj, inputs], ?_⟩
  simp only [catalogContentsDigest, Collides, leftInput, rightInput, Option.map_some,
    Option.some_inj]
  rw [← inputs]
  constructor
  · intro digests
    by_cases same : streamsInput left leftValue = streamsInput right rightValue
    · exact .inl same
    · exact .inr ⟨_, _, rfl, rfl, same, hex_inj _ _ digests⟩
  · rintro (same | ⟨_, _, rfl, rfl, _, collide⟩)
    · rw [same]
    · rw [collide]

end VgiWorker.Catalog.Contents
