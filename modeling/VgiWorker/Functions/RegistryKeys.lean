import Mathlib.Data.List.TakeWhile
import VgiWorker.Functions.RegistryScopes

/-!
# What the registry's keys tell apart

A key joins the names of a declaration with separators, which no check keeps out of the names.
-/

set_option autoImplicit false

namespace VgiWorker.Functions.Registry

open VgiWorker.Js VgiWorker.Arrow VgiWorker.Protocol

/-! ## The name in a key -/

private theorem splitKey_plain (key : Text) : (1 : CodeUnit) ∉ (splitKey key).1 := by
  intro member
  have other := List.mem_takeWhile_imp (List.mem_reverse.mp member)
  cases other

/-! ## Declarations -/

/-- A function declared in a schema of a catalog, under names that the catalog accepts. -/
structure Declaration where
  catalog : Text
  path : List Text
  name : Text
  filled : catalog ≠ []
  valid : ValidPath path

section

variable (toLowerCase : Text → Text)

namespace Declaration

def pathParts (declared : Declaration) : List Text :=
  declared.path.map toLowerCase

/-- The key of the index by schema. -/
def inSchema (declared : Declaration) : Except RegistryFault Text :=
  schemaKey toLowerCase declared.path declared.name

/-- The key of the index by catalog. -/
def inCatalog (declared : Declaration) : Except RegistryFault Text :=
  (catalogKey toLowerCase declared.catalog) <$> declared.inSchema toLowerCase

/-- `schemasFor` reads the name and the path off the key. -/
def Recovered (declared : Declaration) : Prop :=
  ∃ key, declared.inSchema toLowerCase = .ok key ∧ (splitKey key).1 = declared.name ∧
    (splitKey key).2.splitOn 0 = declared.pathParts toLowerCase

def SamePlace (left right : Declaration) : Prop :=
  left.pathParts toLowerCase = right.pathParts toLowerCase ∧ left.name = right.name

/-- Both keys are equal exactly for the same names, catalog and schema up to their case, and give
the names back. -/
structure Separate (left right : Declaration) : Prop where
  schemas : left.inSchema toLowerCase = right.inSchema toLowerCase ↔
    left.SamePlace toLowerCase right
  catalogs : left.inCatalog toLowerCase = right.inCatalog toLowerCase ↔
    toLowerCase left.catalog = toLowerCase right.catalog ∧ left.SamePlace toLowerCase right
  left : left.Recovered toLowerCase
  right : right.Recovered toLowerCase

/-- The names are without the separators of the key. -/
structure Delimited (declared : Declaration) : Prop where
  name : (1 : CodeUnit) ∉ declared.name
  path : ∀ part ∈ declared.pathParts toLowerCase, (0 : CodeUnit) ∉ part

/-- The catalog's name is the other's, continued by a separator and schema names that the other
function's path begins with. -/
def Continues (left right : Declaration) : Prop :=
  left.name = right.name ∧ ∃ parts, parts ≠ [] ∧
    toLowerCase left.catalog = joinText [0] (toLowerCase right.catalog :: parts) ∧
    right.pathParts toLowerCase = parts ++ left.pathParts toLowerCase

theorem inSchema_eq (declared : Declaration) : declared.inSchema toLowerCase =
    .ok (joinText [0] (declared.pathParts toLowerCase) ++ 1 :: declared.name) := by
  obtain ⟨key, isKey⟩ :=
    (schemaKey_valid toLowerCase declared.path declared.name).mpr declared.valid
  obtain ⟨_, rfl⟩ := schemaKey_ok toLowerCase declared.path declared.name key isKey
  exact isKey

private theorem pathParts_ne_nil (declared : Declaration) :
    declared.pathParts toLowerCase ≠ [] := by
  simpa [pathParts] using declared.valid.1

theorem inCatalog_eq (declared : Declaration) : declared.inCatalog toLowerCase =
    .ok (joinText [0] (toLowerCase declared.catalog :: declared.pathParts toLowerCase) ++
      1 :: declared.name) := by
  have filled := pathParts_ne_nil toLowerCase declared
  rw [inCatalog, inSchema_eq]
  cases isParts : declared.pathParts toLowerCase with
  | nil => exact absurd isParts filled
  | cons part rest => simp [joinText, catalogKey, Functor.map, Except.map]

theorem recovered_iff (declared : Declaration) :
    declared.Recovered toLowerCase ↔ declared.Delimited toLowerCase := by
  have filled := pathParts_ne_nil toLowerCase declared
  constructor
  · rintro ⟨key, isKey, isName, isPath⟩
    have nameFree : (1 : CodeUnit) ∉ declared.name := isName ▸ splitKey_plain key
    rw [inSchema_eq, Except.ok.injEq] at isKey
    rw [← isKey, splitKey_eq _ _ nameFree] at isPath
    exact ⟨nameFree, (splitOn_joinText_iff 0 _ filled).mp isPath⟩
  · intro delimited
    refine ⟨_, inSchema_eq toLowerCase declared, ?_⟩
    rw [splitKey_eq _ _ delimited.name]
    exact ⟨rfl, (splitOn_joinText_iff 0 _ filled).mpr delimited.path⟩

/-! ## Equal keys -/

private theorem schemas_iff (left right : Declaration) (leftFree : left.Delimited toLowerCase)
    (rightFree : right.Delimited toLowerCase) :
    left.inSchema toLowerCase = right.inSchema toLowerCase ↔
      left.SamePlace toLowerCase right := by
  rw [inSchema_eq, inSchema_eq, Except.ok.injEq]
  constructor
  · intro same
    obtain ⟨paths, names⟩ :=
      append_delimiter_inj_last (1 : CodeUnit) _ _ _ _ leftFree.name rightFree.name same
    have pieces := congrArg (List.splitOn 0) paths
    rw [(splitOn_joinText_iff 0 _ (pathParts_ne_nil toLowerCase left)).mpr leftFree.path,
      (splitOn_joinText_iff 0 _ (pathParts_ne_nil toLowerCase right)).mpr rightFree.path] at pieces
    exact ⟨pieces, names⟩
  · intro ⟨paths, names⟩
    rw [paths, names]

/-- What a catalog name and a path are split into together. -/
private theorem splitOn_catalog (catalog : Text) (parts : List Text) (filled : parts ≠ [])
    (free : ∀ part ∈ parts, (0 : CodeUnit) ∉ part) :
    (joinText [0] (catalog :: parts)).splitOn 0 = catalog.splitOn 0 ++ parts := by
  rw [joinText_cons_of_ne_nil 0 _ _ filled, List.splitOn_append_cons_self, (splitOn_joinText_iff 0 _ filled).mpr free]

private theorem joinText_append (first : Text) (rest parts : List Text) :
    joinText [0] (joinText [0] (first :: rest) :: parts) = joinText [0] (first :: rest ++ parts) := by
  induction rest generalizing first with
  | nil => rfl
  | cons second rest ih =>
      cases parts with
      | nil => simp [joinText]
      | cons part parts =>
          have later := ih second
          simp only [joinText, List.cons_append, List.append_assoc] at later ⊢
          rw [later]

private theorem joinText_splitOn (value : Text) : joinText [0] (value.splitOn 0) = value := by
  rw [joinText_eq_intercalate, List.intercalate_splitOn]

/-- One catalog name split into the pieces of the other and more of them. -/
private theorem continues_of_pieces (catalog other : Text) (parts : List Text)
    (pieces : catalog.splitOn 0 = other.splitOn 0 ++ parts) :
    catalog = joinText [0] (other :: parts) := by
  have whole := joinText_splitOn catalog
  obtain ⟨first, rest, split⟩ := List.exists_cons_of_ne_nil (List.splitOn_ne_nil 0 other)
  rw [pieces, split] at whole
  rw [← whole, ← joinText_append, ← split, joinText_splitOn]

private theorem same_of_continues (left right : Declaration)
    (continued : left.Continues toLowerCase right) :
    left.inCatalog toLowerCase = right.inCatalog toLowerCase := by
  obtain ⟨functions, parts, _, catalogs, paths⟩ := continued
  rw [inCatalog_eq, inCatalog_eq, functions, catalogs, paths, joinText_append, List.cons_append]

private theorem catalogs_iff (left right : Declaration) (leftFree : left.Delimited toLowerCase)
    (rightFree : right.Delimited toLowerCase) :
    left.inCatalog toLowerCase = right.inCatalog toLowerCase ↔
      toLowerCase left.catalog = toLowerCase right.catalog ∧ left.SamePlace toLowerCase right ∨
        left.Continues toLowerCase right ∨ right.Continues toLowerCase left := by
  constructor
  · intro same
    rw [inCatalog_eq, inCatalog_eq, Except.ok.injEq] at same
    obtain ⟨names, functions⟩ :=
      append_delimiter_inj_last (1 : CodeUnit) _ _ _ _ leftFree.name rightFree.name same
    have pieces := congrArg (List.splitOn 0) names
    rw [splitOn_catalog _ _ (pathParts_ne_nil toLowerCase left) leftFree.path,
      splitOn_catalog _ _ (pathParts_ne_nil toLowerCase right) rightFree.path] at pieces
    rcases List.append_eq_append_iff.mp pieces with ⟨parts, more, paths⟩ | ⟨parts, more, paths⟩
    · by_cases none : parts = []
      · subst none
        rw [List.append_nil] at more
        have catalogs := congrArg (joinText [0]) more
        rw [joinText_splitOn, joinText_splitOn] at catalogs
        exact .inl ⟨catalogs.symm, paths, functions⟩
      · exact .inr (.inr ⟨functions.symm, parts, none, continues_of_pieces _ _ _ more, paths⟩)
    · by_cases none : parts = []
      · subst none
        rw [List.append_nil] at more
        have catalogs := congrArg (joinText [0]) more
        rw [joinText_splitOn, joinText_splitOn] at catalogs
        exact .inl ⟨catalogs, paths.symm, functions⟩
      · exact .inr (.inl ⟨functions, parts, none, continues_of_pieces _ _ _ more, paths⟩)
  · rintro (⟨catalogs, paths, functions⟩ | continued | continued)
    · rw [inCatalog_eq, inCatalog_eq, catalogs, paths, functions]
    · exact same_of_continues toLowerCase left right continued
    · exact (same_of_continues toLowerCase right left continued).symm

private theorem joinText_longer (first : Text) (parts : List Text) (more : parts ≠ []) :
    first ≠ joinText [0] (first :: parts) := by
  intro same
  have lengths := congrArg List.length same
  rw [joinText_cons_of_ne_nil 0 _ _ more, List.length_append, List.length_cons] at lengths
  omega

/-- Where a catalog name continues another, equal keys stand for two catalogs. -/
private theorem catalogs_ne_of_continues (left right : Declaration)
    (continued : left.Continues toLowerCase right) :
    toLowerCase left.catalog ≠ toLowerCase right.catalog := by
  obtain ⟨_, parts, more, names, _⟩ := continued
  rw [names]
  exact (joinText_longer _ parts more).symm

/-- The keys of two declarations separate them exactly when the names are without the separators,
and neither catalog's name is the other's with schema names behind it. -/
theorem keys_separate_iff (left right : Declaration) :
    left.Separate toLowerCase right ↔
      left.Delimited toLowerCase ∧ right.Delimited toLowerCase ∧
        ¬ left.Continues toLowerCase right ∧ ¬ right.Continues toLowerCase left := by
  constructor
  · intro separate
    have leftFree := (recovered_iff toLowerCase left).mp separate.left
    have rightFree := (recovered_iff toLowerCase right).mp separate.right
    have equal := catalogs_iff toLowerCase left right leftFree rightFree
    refine ⟨leftFree, rightFree, fun continued => ?_, fun continued => ?_⟩
    · exact catalogs_ne_of_continues toLowerCase left right continued
        (separate.catalogs.mp (equal.mpr (.inr (.inl continued)))).1
    · exact catalogs_ne_of_continues toLowerCase right left continued
        (separate.catalogs.mp (equal.mpr (.inr (.inr continued)))).1.symm
  · rintro ⟨leftFree, rightFree, onward, backward⟩
    refine ⟨schemas_iff toLowerCase left right leftFree rightFree, ?_,
      (recovered_iff toLowerCase left).mpr leftFree, (recovered_iff toLowerCase right).mpr rightFree⟩
    rw [catalogs_iff toLowerCase left right leftFree rightFree, or_iff_left]
    exact not_or.mpr ⟨onward, backward⟩

/-- A schema whose name holds U+0000. -/
def nulSchema : Declaration where
  catalog := text "c"
  path := [[0x61, 0, 0x62]]
  name := text "f"
  filled := by decide
  valid := ⟨by decide, by decide⟩

def nestedSchema : Declaration where
  catalog := text "c"
  path := [text "a", text "b"]
  name := text "f"
  filled := by decide
  valid := ⟨by decide, by decide⟩

/-- Two schemas share both keys; the names are in lower case already. -/
theorem nul_joins_schemas : nulSchema.inSchema id = nestedSchema.inSchema id ∧
    nulSchema.inCatalog id = nestedSchema.inCatalog id ∧
    ¬ nulSchema.SamePlace id nestedSchema ∧ ¬ nulSchema.Separate id nestedSchema := by
  have different : ¬ nulSchema.SamePlace id nestedSchema := fun same => by
    have paths := same.1
    revert paths
    decide
  have same : nulSchema.inSchema id = nestedSchema.inSchema id := rfl
  exact ⟨same, rfl, different, fun separate => different (separate.schemas.mp same)⟩

end Declaration

end

end VgiWorker.Functions.Registry
