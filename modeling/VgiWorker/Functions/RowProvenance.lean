import Mathlib.Tactic.NormNum
import VgiWorker.Functions.FilteredRows

/-!
# Rows keep their parents

When the filtering collector delivers each surviving row under its parent, and
every other metadata entry with it.
-/

set_option autoImplicit false

namespace VgiWorker.Functions

open VgiWorker.Js VgiWorker.Arrow VgiWorker.FilterPushdown

/-! ## The parent list on the wire -/

/-- An integer that a signed word holds. -/
def FitsInt32 (value : Int) : Prop :=
  -2 ^ 31 ≤ value ∧ value < 2 ^ 31

private theorem int32Value_int32Bytes (value : Int) (fits : FitsInt32 value) :
    int32Value (int32Bytes value) = value := by
  obtain ⟨low, high⟩ := fits
  have nonneg := Int.emod_nonneg value (by decide : (2 ^ 32 : Int) ≠ 0)
  have below := Int.emod_lt_of_pos value (by decide : (0 : Int) < 2 ^ 32)
  have written : leValue (leBytes 4 (value % 2 ^ 32).toNat) = (value % 2 ^ 32).toNat :=
    leValue_leBytes_of_lt 4 _ (by omega)
  rw [int32Value, int32Bytes, written]
  split <;> omega

private theorem fits_int32Value (first second third fourth : UInt8) :
    FitsInt32 (int32Value [first, second, third, fourth]) := by
  have below := leValue_lt [first, second, third, fourth]
  simp only [List.length_cons, List.length_nil] at below
  unfold FitsInt32 int32Value
  split <;> omega

theorem int32Values_flatMap (rows : List Int) (fit : ∀ row ∈ rows, FitsInt32 row) :
    int32Values (rows.flatMap int32Bytes) = rows := by
  induction rows with
  | nil => rfl
  | cons row rest ih =>
      obtain ⟨first, second, third, fourth, bytes⟩ :
          ∃ first second third fourth, int32Bytes row = [first, second, third, fourth] :=
        ⟨_, _, _, _, rfl⟩
      have here := int32Value_int32Bytes row (fit row List.mem_cons_self)
      rw [bytes] at here
      rw [List.flatMap_cons, bytes]
      simp only [List.cons_append, List.nil_append, int32Values]
      rw [here, ih fun other member => fit other (List.mem_cons_of_mem _ member)]

private theorem fit_int32Values (bytes : Bytes) : ∀ row ∈ int32Values bytes, FitsInt32 row := by
  fun_induction int32Values bytes with
  | case1 first second third fourth rest ih =>
      intro row member
      rcases List.mem_cons.mp member with here | later
      · exact here ▸ fits_int32Value first second third fourth
      · exact ih row later
  | case2 => exact fun _ member => absurd member List.not_mem_nil

section

variable (decodeBase64 : Text → Bytes)

theorem decodeParentRows_encode (inverts : ∀ bytes, decodeBase64 (bytesToB64 bytes) = bytes)
    (encoded : Text) (mask : List Bool) :
    decodeParentRows decodeBase64
        (encodeParentRows (keepMasked (decodeParentRows decodeBase64 encoded) mask)) =
      keepMasked (decodeParentRows decodeBase64 encoded) mask := by
  rw [decodeParentRows, encodeParentRows, inverts]
  exact int32Values_flatMap _ fun row member =>
    fit_int32Values _ row (mem_of_keepMasked _ mask row member)

/-! ## Delivered metadata -/

private theorem get?_foldl_set (entries : List (Text × Text)) (base : Metadata) (key : Text)
    (nodup : (entries.map Prod.fst).Nodup) :
    (entries.foldl (fun sent entry => sent.set entry.1 entry.2) base).get? key =
      (lookupEntry entries key).or (base.get? key) := by
  induction entries generalizing base with
  | nil => rfl
  | cons entry rest ih =>
      obtain ⟨fresh, others⟩ := List.nodup_cons.mp nodup
      rw [List.foldl_cons, ih _ others, OrderedMap.get?_set, lookupEntry]
      by_cases same : entry.1 = key
      · have absent : lookupEntry rest key = none := by
          cases found : lookupEntry rest key with
          | none => rfl
          | some value =>
              exact absurd (List.mem_map_of_mem (f := Prod.fst)
                (mem_of_lookupEntry rest key value found)) (same ▸ fresh)
        simp [same, absent]
      · simp [same]

/-- An entry passed to emit goes over the one the batch carries. -/
theorem get?_sent (emitted : Emitted) (key : Text) :
    emitted.sent.get? key =
      ((emitted.metadata.getD .empty).get? key).or
        ((emitted.batch.metadata.getD .empty).get? key) :=
  get?_foldl_set _ _ key (emitted.metadata.getD .empty).nodup_keys

private theorem parentOf_congr (left right : Metadata) (row : Nat)
    (same : left.get? parentRowMetadataKey = right.get? parentRowMetadataKey) :
    parentOf decodeBase64 left row = parentOf decodeBase64 right row := by
  rw [parentOf, parentOf, same]

/-! ## What a filtered emit delivers -/

private theorem length_evaluateFrom (context : EvaluationContext) (batch : Batch)
    (predicates : List FilterPredicate) (mask result : List Bool)
    (whole : mask.length = batch.numRows)
    (success : PushdownFilters.evaluateFrom context batch predicates mask = .ok result) :
    result.length = batch.numRows := by
  induction predicates generalizing mask with
  | nil =>
      cases success
      exact whole
  | cons predicate rest ih =>
      rw [PushdownFilters.evaluateFrom] at success
      split at success
      · exact ih mask whole success
      · split at success
        · next values rows =>
            have count := ((except_mapM_iff _ _ _).mp rows).length_eq
            rw [List.length_range] at count
            refine ih _ ?_ success
            rw [PushdownFilters.narrowMask, List.length_zipWith, whole, count, Nat.min_self]
        · split at success
          · exact ih mask whole success
          · cases success

/-- A mask has an entry for each row. -/
theorem length_evaluate (filters : PushdownFilters) (batch : Batch) (mask : List Bool)
    (evaluated : filters.evaluate batch = .ok mask) : mask.length = batch.numRows :=
  length_evaluateFrom _ batch _ _ mask List.length_replicate evaluated

/-- The metadata that a filtered batch itself still carries. -/
def remaining (emitted : Emitted) (mask : List Bool) : Metadata :=
  if ∀ keep ∈ mask, keep = true then emitted.batch.metadata.getD .empty else .empty

/-- Emit is passed a parent list that lists a surviving row. -/
def ListsSurvivor (emitted : Emitted) (mask : List Bool) : Prop :=
  ∃ encoded, (emitted.metadata.getD .empty).get? parentRowMetadataKey = some encoded ∧
    keepMasked (decodeParentRows decodeBase64 encoded) mask ≠ []

/-- The entries of a filtered emit. -/
structure Delivers (emitted filtered : Emitted) (mask : List Bool) : Prop where
  others : ∀ key, key ≠ parentRowMetadataKey → filtered.sent.get? key =
    ((emitted.metadata.getD .empty).get? key).or ((remaining emitted mask).get? key)
  listed : ∀ encoded, (emitted.metadata.getD .empty).get? parentRowMetadataKey = some encoded →
    keepMasked (decodeParentRows decodeBase64 encoded) mask ≠ [] →
    filtered.sent.get? parentRowMetadataKey =
      some (encodeParentRows (keepMasked (decodeParentRows decodeBase64 encoded) mask))
  unlisted : ¬ListsSurvivor decodeBase64 emitted mask →
    filtered.sent.get? parentRowMetadataKey = (remaining emitted mask).get? parentRowMetadataKey

private theorem delivers_unlisted (emitted : Emitted) (mask : List Bool) (batch : Batch)
    (left : batch.metadata.getD .empty = remaining emitted mask)
    (absent : (emitted.metadata.getD .empty).get? parentRowMetadataKey = none) :
    Delivers decodeBase64 emitted ⟨batch, emitted.metadata⟩ mask where
  others := fun key _ => by rw [get?_sent, left]
  listed := fun encoded present => by
    rw [absent] at present
    cases present
  unlisted := fun _ => by rw [get?_sent, left, absent, Option.none_or]

private theorem delivers_listed (emitted : Emitted) (metadata : Metadata) (encoded : Text)
    (mask : List Bool) (batch : Batch)
    (left : batch.metadata.getD .empty = remaining emitted mask)
    (passed : emitted.metadata = some metadata)
    (list : metadata.get? parentRowMetadataKey = some encoded) :
    Delivers decodeBase64 emitted
      ⟨batch, some (filterParents decodeBase64 metadata encoded mask)⟩ mask := by
  have sent (key : Text) :
      (Emitted.mk batch (some (filterParents decodeBase64 metadata encoded mask))).sent.get? key =
        ((filterParents decodeBase64 metadata encoded mask).get? key).or
          ((remaining emitted mask).get? key) := by
    rw [get?_sent, left]
    rfl
  have own : emitted.metadata.getD .empty = metadata := by rw [passed]; rfl
  constructor
  · intro key other
    have kept : (filterParents decodeBase64 metadata encoded mask).get? key =
        metadata.get? key := by
      unfold filterParents
      dsimp only
      split
      · rw [OrderedMap.get?_delete, if_neg other.symm]
      · rw [OrderedMap.get?_set, if_neg other.symm]
    rw [sent, kept, own]
  · intro same present nonempty
    rw [own, list] at present
    cases present
    rw [sent, filterParents, if_neg nonempty, OrderedMap.get?_set, if_pos rfl, Option.some_or]
  · intro unlisted
    have nothing : keepMasked (decodeParentRows decodeBase64 encoded) mask = [] := by
      by_contra nonempty
      exact unlisted ⟨encoded, by rw [own, list], nonempty⟩
    rw [sent, filterParents, if_pos nothing, OrderedMap.get?_delete, if_pos rfl, Option.none_or]

section

variable {library : VectorLibrary} (nested : Nested.NestedVectors library)
  (dateText : Number → Text)

/-- A filter that is at work passes on the filtered batch, with metadata that does not depend on
it. -/
theorem filteringEmit_active (filters : PushdownFilters) (emitted : Emitted)
    (mask : List Bool) (rows : 0 < emitted.batch.numRows) (filtering : filters.predicates ≠ [])
    (evaluated : filters.evaluate emitted.batch = .ok mask) :
    ∃ metadata, filteringEmit decodeBase64 nested dateText filters emitted =
        (filterBatch nested dateText emitted.batch mask >>= fun batch => .ok ⟨batch, metadata⟩) ∧
      ∀ batch : Batch, batch.metadata.getD .empty = remaining emitted mask →
        Delivers decodeBase64 emitted ⟨batch, metadata⟩ mask := by
  have active : ¬(emitted.batch.numRows = 0 ∨ filters.predicates = []) := by
    rintro (empty | none)
    · omega
    · exact filtering none
  have applied : applyFilters nested dateText filters emitted.batch =
      filterBatch nested dateText emitted.batch mask := by
    rw [applyFilters, if_neg active, evaluated]
    rfl
  cases passed : emitted.metadata with
  | none =>
      refine ⟨none, by simp only [filteringEmit, passed, applied], fun batch left => ?_⟩
      have delivers := delivers_unlisted decodeBase64 emitted mask batch left (by rw [passed]; rfl)
      rwa [passed] at delivers
  | some metadata =>
      cases list : metadata.get? parentRowMetadataKey with
      | none =>
          refine ⟨some metadata, by simp only [filteringEmit, passed, list, applied],
            fun batch left => ?_⟩
          have delivers := delivers_unlisted decodeBase64 emitted mask batch left
            (by rw [passed]; exact list)
          rwa [passed] at delivers
      | some encoded =>
          refine ⟨some (filterParents decodeBase64 metadata encoded mask), ?_, fun batch left =>
            delivers_listed decodeBase64 emitted metadata encoded mask batch left passed list⟩
          simp only [filteringEmit, passed, list, if_pos (And.intro rows filtering), evaluated]
          rfl

end

/-! ## When rows and entries are kept -/

/-- What a filter that is at work leaves right: the entries on the batch are there whatever it
drops, and without a list for the survivors these have the parents they are then read with. -/
structure FiltersSafely (emitted : Emitted) (mask : List Bool) : Prop where
  entries : (∀ keep ∈ mask, keep = true) ∨
    ∀ key, key ≠ parentRowMetadataKey →
      ((emitted.batch.metadata.getD .empty).get? key).isSome →
      ((emitted.metadata.getD .empty).get? key).isSome
  parents : ListsSurvivor decodeBase64 emitted mask ∨
    ∀ index row, (survivors emitted.batch mask)[index]? = some row →
      parentOf decodeBase64 emitted.sent row =
        parentOf decodeBase64 (remaining emitted mask) index

private theorem entries_iff (emitted filtered : Emitted) (mask : List Bool)
    (delivers : Delivers decodeBase64 emitted filtered mask) :
    (∀ key value, key ≠ parentRowMetadataKey → emitted.sent.get? key = some value →
        filtered.sent.get? key = some value) ↔
      (∀ keep ∈ mask, keep = true) ∨
        ∀ key, key ≠ parentRowMetadataKey →
          ((emitted.batch.metadata.getD .empty).get? key).isSome →
          ((emitted.metadata.getD .empty).get? key).isSome := by
  constructor
  · intro kept
    by_cases all : ∀ keep ∈ mask, keep = true
    · exact Or.inl all
    · refine Or.inr fun key other carried => ?_
      obtain ⟨value, held⟩ := Option.isSome_iff_exists.mp carried
      cases passed : (emitted.metadata.getD .empty).get? key with
      | some value => rfl
      | none =>
          have before : emitted.sent.get? key = some value := by
            rw [get?_sent, passed, held, Option.none_or]
          have after := kept key value other before
          rw [delivers.others key other, passed, remaining, if_neg all] at after
          cases after
  · intro safe key value other before
    rw [get?_sent] at before
    rw [delivers.others key other]
    cases passed : (emitted.metadata.getD .empty).get? key with
    | some own =>
        rw [passed, Option.some_or] at before
        rw [Option.some_or, before]
    | none =>
        rw [passed, Option.none_or] at before
        rw [Option.none_or]
        rcases safe with all | overridden
        · rw [remaining, if_pos all, before]
        · have present := overridden key other (by rw [before]; rfl)
          rw [passed] at present
          cases present

private theorem parents_iff (inverts : ∀ bytes, decodeBase64 (bytesToB64 bytes) = bytes)
    (emitted filtered : Emitted) (mask : List Bool)
    (delivers : Delivers decodeBase64 emitted filtered mask) :
    (∀ index row, (survivors emitted.batch mask)[index]? = some row →
        parentOf decodeBase64 filtered.sent index = parentOf decodeBase64 emitted.sent row) ↔
      ListsSurvivor decodeBase64 emitted mask ∨
        ∀ index row, (survivors emitted.batch mask)[index]? = some row →
          parentOf decodeBase64 emitted.sent row =
            parentOf decodeBase64 (remaining emitted mask) index := by
  by_cases listed : ListsSurvivor decodeBase64 emitted mask
  · refine ⟨fun _ => Or.inl listed, fun _ index row survives => ?_⟩
    obtain ⟨encoded, passed, nonempty⟩ := listed
    have before : emitted.sent.get? parentRowMetadataKey = some encoded := by
      rw [get?_sent, passed, Option.some_or]
    rw [parentOf, parentOf, delivers.listed encoded passed nonempty, before]
    dsimp only
    rw [decodeParentRows_encode decodeBase64 inverts encoded mask]
    exact keepMasked_row _ mask _ index row survives
  · have fallsBack (index : Nat) : parentOf decodeBase64 filtered.sent index =
        parentOf decodeBase64 (remaining emitted mask) index :=
      parentOf_congr decodeBase64 _ _ index (delivers.unlisted listed)
    constructor
    · intro kept
      exact Or.inr fun index row survives => by rw [← kept index row survives, fallsBack]
    · rintro (isListed | same) index row survives
      · exact absurd isListed listed
      · rw [fallsBack, same index row survives]

section

variable {library : VectorLibrary} (nested : Nested.NestedVectors library)
  (dateText : Number → Text)

/-- With no rows or no predicates the emit goes through as it is. -/
private theorem filteringEmit_idle (filters : PushdownFilters) (emitted : Emitted)
    (idle : emitted.batch.numRows = 0 ∨ filters.predicates = []) :
    filteringEmit decodeBase64 nested dateText filters emitted = .ok emitted := by
  have applied : applyFilters nested dateText filters emitted.batch = .ok emitted.batch :=
    if_pos idle
  have inactive : ¬(0 < emitted.batch.numRows ∧ filters.predicates ≠ []) := by
    rintro ⟨rows, filtering⟩
    rcases idle with empty | none
    · omega
    · exact filtering none
  cases passed : emitted.metadata with
  | none =>
      simp only [filteringEmit, passed, applied, except_ok_bind]
      rw [← passed]
  | some metadata =>
      cases list : metadata.get? parentRowMetadataKey with
      | none =>
          simp only [filteringEmit, passed, list, applied, except_ok_bind]
          rw [← passed]
      | some encoded =>
          simp only [filteringEmit, passed, list, if_neg inactive, applied, except_ok_bind]
          rw [← passed]

private theorem keeps_idle (filters : PushdownFilters) (emitted : Emitted) (mask : List Bool)
    (evaluated : filters.evaluate emitted.batch = .ok mask)
    (idle : emitted.batch.numRows = 0 ∨ filters.predicates = []) :
    KeepsProvenance decodeBase64 emitted emitted mask := by
  have every : survivors emitted.batch mask = List.range emitted.batch.numRows := by
    rcases idle with empty | none
    · rw [survivors, empty]
      exact keepMasked_nil mask
    · have all : mask = List.replicate emitted.batch.numRows true := by
        rw [PushdownFilters.evaluate, none] at evaluated
        exact (Except.ok.inj evaluated).symm
      exact keepMasked_of_all _ mask (by simp [all]) (by simp [all])
  refine ⟨by rw [every, List.length_range], fun index row survives => ?_,
    fun _ _ _ delivered => delivered⟩
  rw [every] at survives
  obtain ⟨_, same⟩ := List.getElem?_eq_some_iff.mp survives
  rw [List.getElem_range] at same
  rw [same]

end

end

/-! ## A filter that drops the first of two rows -/

/-- It keeps the rows whose BOOLEAN column `keep` is true. -/
def keepFilter : PushdownFilters where
  predicates := [⟨text "p", 0, .required, .query, .columnRef 0 (text "keep") none⟩]
  evaluationContext := ⟨text "vgi.none.v1", none, none, none, none, none, none⟩
  options := { outputSchema := ⟨[], .empty⟩ }
  revisions := .empty
  requiredIds := [text "p"]

def keepBatch (metadata : Option Metadata) : Batch where
  schema := ⟨[⟨text "keep", .bool, true, .empty⟩], .empty⟩
  columns := [[.bool false, .bool true]]
  numRows := 2
  metadata := metadata

/-- A batch that says more on itself, emitted without a parent list. -/
def saysMoreOnBatch : Emitted :=
  ⟨keepBatch (some (OrderedMap.empty.set statusKey haveMoreOutput)), none⟩

def standardDecode (encoded : Text) : Bytes :=
  (b64ToBytes? encoded).getD []

end VgiWorker.Functions
