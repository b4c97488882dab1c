import Mathlib.Data.List.TakeWhile
import VgiWorker.Data.Delimited
import VgiWorker.Functions.Registry

/-!
# The candidates in scope

What a registry holds after a run of registrations, and which of it a lookup finds.
-/

set_option autoImplicit false

namespace VgiWorker.Functions.Registry

open VgiWorker.Js VgiWorker.Arrow VgiWorker.Protocol

/-! ## Joining and splitting -/

theorem joinText_cons_of_ne_nil (separator : CodeUnit) (part : Text) (rest : List Text)
    (filled : rest ≠ []) :
    joinText [separator] (part :: rest) = part ++ separator :: joinText [separator] rest := by
  cases rest with
  | nil => exact absurd rfl filled
  | cons next others => simp [joinText]

theorem joinText_eq_intercalate (separator : CodeUnit) (parts : List Text) :
    joinText [separator] parts = [separator].intercalate parts := by
  induction parts with
  | nil => rfl
  | cons part rest ih =>
      by_cases filled : rest = []
      · simp [filled, joinText]
      · rw [joinText_cons_of_ne_nil _ _ _ filled, ih, List.intercalate_cons_of_ne_nil filled,
          List.append_assoc, List.singleton_append]

private theorem not_mem_of_mem_splitOn (separator : CodeUnit) (value part : Text)
    (member : part ∈ value.splitOn separator) : separator ∉ part := by
  induction value generalizing part with
  | nil =>
      rw [List.splitOn_nil, List.mem_singleton] at member
      rw [member]
      exact List.not_mem_nil
  | cons unit rest ih =>
      rw [List.splitOn_cons_eq_if_modifyHead] at member
      split at member
      · cases member with
        | head => exact List.not_mem_nil
        | tail _ later => exact ih part later
      · rename_i other
        cases pieces : rest.splitOn separator with
        | nil =>
            rw [pieces] at member
            cases member
        | cons first others =>
            rw [pieces] at member ih
            cases member with
            | head =>
                have firstFree := ih first List.mem_cons_self
                simp only [List.mem_cons, not_or]
                exact ⟨fun same => other (by simp [same]), firstFree⟩
            | tail _ later => exact ih part (.tail _ later)

/-- Joined parts are split again exactly when none holds the separator. -/
theorem splitOn_joinText_iff (separator : CodeUnit) (parts : List Text)
    (filled : parts ≠ []) :
    (joinText [separator] parts).splitOn separator = parts ↔ ∀ part ∈ parts, separator ∉ part := by
  rw [joinText_eq_intercalate]
  constructor
  · intro split part member
    exact not_mem_of_mem_splitOn separator _ part (split.symm ▸ member)
  · exact fun free => List.splitOn_intercalate separator free filled

private theorem joinText_inj (separator : CodeUnit) (left right : List Text)
    (leftFree : ∀ part ∈ left, separator ∉ part) (rightFree : ∀ part ∈ right, separator ∉ part)
    (leftFilled : left ≠ []) (rightFilled : right ≠ [])
    (same : joinText [separator] left = joinText [separator] right) : left = right := by
  have split := congrArg (List.splitOn separator) same
  rwa [(splitOn_joinText_iff separator left leftFilled).mpr leftFree,
    (splitOn_joinText_iff separator right rightFilled).mpr rightFree] at split

theorem splitKey_eq (start name : Text) (plainName : (1 : CodeUnit) ∉ name) :
    splitKey (start ++ 1 :: name) = (name, start) := by
  have free : ∀ unit ∈ name.reverse, (unit != 1) = true := by
    intro unit member
    rw [bne_iff_ne]
    rintro rfl
    exact plainName (List.mem_reverse.mp member)
  rw [splitKey, List.reverse_append, List.reverse_cons, List.append_assoc,
    List.takeWhile_append_of_pos free, List.dropWhile_append_of_pos free]
  simp

/-! ## References under a key -/

def Holds (map : OrderedMap Text (List Nat)) (key : Text) (ref : Nat) : Prop :=
  ∃ bucket, map.get? key = some bucket ∧ ref ∈ bucket

def Filled (map : OrderedMap Text (List Nat)) : Prop :=
  ∀ key, map.get? key ≠ some []

private theorem holds_set (map : OrderedMap Text (List Nat)) (key : Text) (bucket : List Nat)
    (other : Text) (ref : Nat) :
    Holds (map.set key bucket) other ref ↔
      if key = other then ref ∈ bucket else Holds map other ref := by
  unfold Holds
  rw [OrderedMap.get?_set]
  by_cases same : key = other
  · simp [same]
  · simp [same]

private theorem filled_set (map : OrderedMap Text (List Nat)) (key : Text) (first : Nat)
    (rest : List Nat) (filled : Filled map) : Filled (map.set key (first :: rest)) := by
  intro other
  rw [OrderedMap.get?_set]
  split
  · nofun
  · exact filled other

private theorem filled_append (map : OrderedMap Text (List Nat)) (key : Text) (bucket : List Nat)
    (ref : Nat) (filled : Filled map) : Filled (map.set key (bucket ++ [ref])) := by
  cases bucket with
  | nil => exact filled_set map key ref [] filled
  | cons first rest => exact filled_set map key first (rest ++ [ref]) filled

theorem addTo_filled (map : OrderedMap Text (List Nat)) (key : Text) (ref : Nat)
    (filled : Filled map) : Filled (addTo map key ref) := by
  rw [addTo]
  split
  · exact filled_set map key ref [] filled
  · rename_i bucket _
    split
    · exact filled
    · exact filled_append map key bucket ref filled

theorem holds_addTo (map : OrderedMap Text (List Nat)) (key : Text) (ref : Nat) (other : Text)
    (found : Nat) :
    Holds (addTo map key ref) other found ↔
      Holds map other found ∨ key = other ∧ found = ref := by
  rw [addTo]
  split
  · rename_i absent
    rw [holds_set]
    by_cases same : key = other
    · subst same
      simp [Holds, absent]
    · simp [same]
  · rename_i bucket present
    split
    · rename_i listed
      constructor
      · exact .inl
      · rintro (held | ⟨rfl, rfl⟩)
        · exact held
        · exact ⟨bucket, present, listed⟩
    · rw [holds_set]
      by_cases same : key = other
      · subst same
        simp [Holds, present]
      · simp [same]

private theorem holds_append (map : OrderedMap Text (List Nat)) (key : Text) (ref : Nat)
    (other : Text) (found : Nat) :
    Holds (map.set key ((map.get? key).getD [] ++ [ref])) other found ↔
      Holds map other found ∨ key = other ∧ found = ref := by
  rw [holds_set]
  by_cases same : key = other
  · subst same
    cases held : map.get? key with
    | none => simp [Holds, held]
    | some bucket => simp [Holds, held]
  · simp [same]

/-- The bucket of a key that is found with an entry. -/
private theorem bucket_cases (map : OrderedMap Text (List Nat)) (filled : Filled map) (key : Text) :
    map.get? key = none ∧ (∀ ref, ¬ Holds map key ref) ∨
      ∃ first rest, map.get? key = some (first :: rest) ∧
        ∀ ref, ref ∈ first :: rest ↔ Holds map key ref := by
  cases held : map.get? key with
  | none => exact .inl ⟨rfl, fun ref ⟨bucket, found, _⟩ => nomatch held.symm.trans found⟩
  | some bucket =>
      cases bucket with
      | nil => exact absurd held (filled key)
      | cons first rest =>
          refine .inr ⟨first, rest, rfl, fun ref => ⟨fun member => ⟨_, held, member⟩, ?_⟩⟩
          rintro ⟨bucket, found, member⟩
          cases held.symm.trans found
          exact member

/-! ## After a run of registrations -/

section

variable (toLowerCase : Text → Text) (object : Nat → VgiFunction)

/-- The key under which a registration lists a function in a schema. -/
def ListsInSchema (registration : Registration) (key : Text) (ref : Nat) : Prop :=
  ∃ path catalogName, registration = .registerInSchema ref path catalogName ∧
    schemaKey toLowerCase path (object ref).name = .ok key

def ListsInCatalog (registration : Registration) (key : Text) (ref : Nat) : Prop :=
  ∃ path catalogName inSchema, catalogName ≠ [] ∧
    registration = .registerInSchema ref path (some catalogName) ∧
    schemaKey toLowerCase path (object ref).name = .ok inSchema ∧
    catalogKey toLowerCase catalogName inSchema = key

/-- What is held beside what was held before. -/
structure Added (before after : FunctionRegistry) (log : List Registration) : Prop where
  functions : ∀ key ref, Holds after.functions key ref ↔
    Holds before.functions key ref ∨ .register ref ∈ log ∧ (object ref).name = key
  bySchema : ∀ key ref, Holds after.bySchema key ref ↔
    Holds before.bySchema key ref ∨
      ∃ registration ∈ log, ListsInSchema toLowerCase object registration key ref
  byCatalog : ∀ key ref, Holds after.byCatalog key ref ↔
    Holds before.byCatalog key ref ∨
      ∃ registration ∈ log, ListsInCatalog toLowerCase object registration key ref

structure AllFilled (registry : FunctionRegistry) : Prop where
  functions : Filled registry.functions
  bySchema : Filled registry.bySchema
  byCatalog : Filled registry.byCatalog

private theorem perform_filled (before after : FunctionRegistry) (registration : Registration)
    (performed : perform toLowerCase object before registration = .ok after)
    (filled : AllFilled before) : AllFilled after := by
  cases registration with
  | register ref =>
      cases performed
      exact ⟨filled_append _ _ _ ref filled.functions, filled.bySchema, filled.byCatalog⟩
  | registerInSchema ref path catalogName =>
      obtain ⟨key, _, performed⟩ := except_bind_ok _ _ _ performed
      have declared := addTo_filled before.bySchema key ref filled.bySchema
      match catalogName with
      | none | some [] =>
          cases performed
          exact ⟨filled.functions, declared, filled.byCatalog⟩
      | some (unit :: rest) =>
          cases performed
          exact ⟨filled.functions, declared, addTo_filled _ _ ref filled.byCatalog⟩

private theorem perform_added (before after : FunctionRegistry) (registration : Registration)
    (performed : perform toLowerCase object before registration = .ok after) :
    Added toLowerCase object before after [registration] := by
  cases registration with
  | register ref =>
      cases performed
      refine ⟨fun key found => ?_, fun key found => ?_, fun key found => ?_⟩
      · rw [register, holds_append, List.mem_singleton, Registration.register.injEq]
        refine or_congr_right ⟨?_, ?_⟩
        · rintro ⟨named, rfl⟩
          exact ⟨rfl, named⟩
        · rintro ⟨rfl, named⟩
          exact ⟨named, rfl⟩
      · simp [ListsInSchema, register]
      · simp [ListsInCatalog, register]
  | registerInSchema ref path catalogName =>
      obtain ⟨key, isKey, performed⟩ := except_bind_ok _ _ _ performed
      have inSchema (after : OrderedMap Text (List Nat))
          (added : after = addTo before.bySchema key ref) (other : Text) (found : Nat) :
          Holds after other found ↔ Holds before.bySchema other found ∨
            ∃ registration ∈ [Registration.registerInSchema ref path catalogName],
              ListsInSchema toLowerCase object registration other found := by
        rw [added, holds_addTo]
        refine or_congr_right ⟨?_, ?_⟩
        · rintro ⟨rfl, rfl⟩
          exact ⟨_, List.mem_singleton_self _, path, catalogName, rfl, isKey⟩
        · rintro ⟨_, member, _, _, same, listed⟩
          cases List.mem_singleton.mp member
          cases same
          cases isKey.symm.trans listed
          exact ⟨rfl, rfl⟩
      have unchanged (catalogName : Option Text) (none : ∀ unit rest, catalogName ≠ some (unit :: rest))
          (other : Text) (found : Nat) : Holds before.byCatalog other found ↔
          Holds before.byCatalog other found ∨
            ∃ registration ∈ [Registration.registerInSchema ref path catalogName],
              ListsInCatalog toLowerCase object registration other found := by
        refine ⟨.inl, ?_⟩
        rintro (held | ⟨_, member, _, catalog, _, named, same, _⟩)
        · exact held
        · cases List.mem_singleton.mp member
          cases same
          cases catalog with
          | nil => exact absurd rfl named
          | cons unit rest => exact absurd rfl (none unit rest)
      match catalogName with
      | none =>
          cases performed
          exact ⟨fun _ _ => by simp, inSchema _ rfl, unchanged none nofun⟩
      | some [] =>
          cases performed
          exact ⟨fun _ _ => by simp, inSchema _ rfl, unchanged (some []) nofun⟩
      | some (unit :: rest) =>
          cases performed
          refine ⟨fun _ _ => by simp, inSchema _ rfl, fun other found => ?_⟩
          rw [holds_addTo]
          refine or_congr_right ⟨?_, ?_⟩
          · rintro ⟨rfl, rfl⟩
            exact ⟨_, List.mem_singleton_self _, path, unit :: rest, key, List.cons_ne_nil _ _, rfl,
              isKey, rfl⟩
          · rintro ⟨_, member, _, _, _, _, same, listed, isCatalogKey⟩
            cases List.mem_singleton.mp member
            cases same
            cases isKey.symm.trans listed
            exact ⟨isCatalogKey, rfl⟩

private theorem foldlM_added (log : List Registration) (before after : FunctionRegistry)
    (built : log.foldlM (perform toLowerCase object) before = .ok after)
    (filled : AllFilled before) :
    AllFilled after ∧ Added toLowerCase object before after log := by
  induction log generalizing before with
  | nil =>
      cases built
      exact ⟨filled, fun _ _ => by simp, fun _ _ => by simp, fun _ _ => by simp⟩
  | cons registration rest ih =>
      rw [List.foldlM_cons] at built
      obtain ⟨next, performed, built⟩ := except_bind_ok _ _ _ built
      have first := perform_added toLowerCase object before next registration performed
      obtain ⟨allFilled, later⟩ :=
        ih next built (perform_filled toLowerCase object before next registration performed filled)
      refine ⟨allFilled, fun key ref => ?_, fun key ref => ?_, fun key ref => ?_⟩
      · rw [later.functions, first.functions, List.mem_singleton, List.mem_cons, or_assoc,
          ← or_and_right]
      · rw [later.bySchema, first.bySchema, List.exists_mem_cons_iff]
        simp [or_assoc]
      · rw [later.byCatalog, first.byCatalog, List.exists_mem_cons_iff]
        simp [or_assoc]

theorem build_added (log : List Registration) (registry : FunctionRegistry)
    (built : build toLowerCase object log = .ok registry) :
    AllFilled registry ∧ Added toLowerCase object .empty registry log :=
  foldlM_added toLowerCase object log .empty registry built ⟨nofun, nofun, nofun⟩

/-- A run of registrations names valid schema paths only. -/
theorem build_valid (log : List Registration) (registry : FunctionRegistry)
    (built : build toLowerCase object log = .ok registry) (ref : Nat) (path : List Text)
    (catalogName : Option Text) (member : .registerInSchema ref path catalogName ∈ log) :
    ∃ key, schemaKey toLowerCase path (object ref).name = .ok key := by
  rw [build] at built
  generalize FunctionRegistry.empty = before at built
  induction log generalizing before with
  | nil => cases member
  | cons registration rest ih =>
      rw [List.foldlM_cons] at built
      obtain ⟨next, performed, built⟩ := except_bind_ok _ _ _ built
      rcases List.mem_cons.mp member with rfl | later
      · obtain ⟨key, isKey, _⟩ := except_bind_ok _ _ _ performed
        exact ⟨key, isKey⟩
      · exact ih later next built

/-! ## Schemas that are told apart -/

/-- Function names without the separator of the keys, and lowercased schema components and catalog
names without that of the components. -/
structure PlainNames (log : List Registration) (name : Text) (context : OverloadContext) :
    Prop where
  name : (1 : CodeUnit) ∉ name
  names : ∀ ref path catalogName, .registerInSchema ref path catalogName ∈ log →
    (1 : CodeUnit) ∉ (object ref).name
  path : ∀ path, context.schemaPath = some path →
    ∀ component ∈ path, (0 : CodeUnit) ∉ toLowerCase component
  paths : ∀ ref path catalogName, .registerInSchema ref path catalogName ∈ log →
    ∀ component ∈ path, (0 : CodeUnit) ∉ toLowerCase component
  catalog : ∀ catalogName, context.catalogName = some catalogName →
    (0 : CodeUnit) ∉ toLowerCase catalogName
  catalogs : ∀ ref path catalogName, .registerInSchema ref path (some catalogName) ∈ log →
    (0 : CodeUnit) ∉ toLowerCase catalogName

def SameSchema (left right : List Text) : Prop :=
  left.map toLowerCase = right.map toLowerCase

private theorem schemaPathKey_ok (path : List Text) (key : Text)
    (isKey : schemaPathKey toLowerCase path = .ok key) :
    path ≠ [] ∧ key = joinText [0] (path.map toLowerCase) := by
  rw [schemaPathKey] at isKey
  split at isKey
  · cases isKey
  · rename_i valid
    cases isKey
    refine ⟨?_, rfl⟩
    rintro rfl
    exact valid (.inl rfl)

theorem schemaKey_ok (path : List Text) (name key : Text)
    (isKey : schemaKey toLowerCase path name = .ok key) :
    path ≠ [] ∧ key = joinText [0] (path.map toLowerCase) ++ 1 :: name := by
  obtain ⟨pathKey, isPathKey, isKey⟩ := except_bind_ok _ _ _ isKey
  obtain ⟨filled, rfl⟩ := schemaPathKey_ok toLowerCase path pathKey isPathKey
  cases isKey
  exact ⟨filled, by simp⟩

private theorem schemaKey_inj (left right : List Text) (name other key : Text)
    (leftKey : schemaKey toLowerCase left name = .ok key)
    (rightKey : schemaKey toLowerCase right other = .ok key)
    (leftFree : ∀ component ∈ left, (0 : CodeUnit) ∉ toLowerCase component)
    (rightFree : ∀ component ∈ right, (0 : CodeUnit) ∉ toLowerCase component)
    (nameFree : (1 : CodeUnit) ∉ name) (otherFree : (1 : CodeUnit) ∉ other) :
    SameSchema toLowerCase left right ∧ name = other := by
  obtain ⟨leftFilled, isLeft⟩ := schemaKey_ok toLowerCase left name key leftKey
  obtain ⟨rightFilled, isRight⟩ := schemaKey_ok toLowerCase right other key rightKey
  obtain ⟨paths, names⟩ := append_delimiter_inj_last (1 : CodeUnit) _ _ _ _ nameFree otherFree
    (isLeft.symm.trans isRight)
  refine ⟨joinText_inj 0 _ _ ?_ ?_ (by simpa using leftFilled) (by simpa using rightFilled) paths,
    names⟩
  · simpa using leftFree
  · simpa using rightFree

private theorem schemaKey_same (left right : List Text) (name key other : Text)
    (same : SameSchema toLowerCase left right)
    (leftKey : schemaKey toLowerCase left name = .ok key)
    (rightKey : schemaKey toLowerCase right name = .ok other) : key = other := by
  obtain ⟨_, rfl⟩ := schemaKey_ok toLowerCase left name key leftKey
  obtain ⟨_, rfl⟩ := schemaKey_ok toLowerCase right name other rightKey
  rw [same]

/-! ## The scope of a call -/

def ValidPath (path : List Text) : Prop :=
  path ≠ [] ∧ [] ∉ path

/-- Some registration declares the function in the schema. -/
def DeclaredIn (log : List Registration) (path : List Text) (ref : Nat) : Prop :=
  ∃ declared catalogName, .registerInSchema ref declared catalogName ∈ log ∧
    SameSchema toLowerCase declared path

def DeclaredInCatalog (log : List Registration) (catalog : Text) (path : List Text) (ref : Nat) :
    Prop :=
  ∃ declared catalogName, catalogName ≠ [] ∧
    .registerInSchema ref declared (some catalogName) ∈ log ∧
    toLowerCase catalogName = toLowerCase catalog ∧ SameSchema toLowerCase declared path

/-- The catalog of the call declares the function in the schema that the call names. -/
def InCatalog (log : List Registration) (context : OverloadContext) (path : List Text) (ref : Nat) :
    Prop :=
  ∃ catalog, context.catalogName = some catalog ∧ catalog ≠ [] ∧
    DeclaredInCatalog toLowerCase log catalog path ref

/-- The functions of a name that a call may mean. One that names a schema means those that its
catalog declares there; where that has none, those that any catalog declares there; and where no
schema declares the name, those of the name. -/
def InScope (log : List Registration) (name : Text) (context : OverloadContext) (ref : Nat) : Prop :=
  (object ref).name = name ∧
  match context.schemaPath with
  | none => .register ref ∈ log
  | some path =>
      ValidPath path ∧
      (InCatalog toLowerCase log context path ref ∨
        (∀ other, (object other).name = name → ¬ InCatalog toLowerCase log context path other) ∧
          DeclaredIn toLowerCase log path ref ∨
        (∀ other declared catalogName, (object other).name = name →
          .registerInSchema other declared catalogName ∉ log) ∧ .register ref ∈ log)

theorem schemaKey_valid (path : List Text) (name : Text) :
    (∃ key, schemaKey toLowerCase path name = .ok key) ↔ ValidPath path := by
  rw [ValidPath]
  constructor
  · rintro ⟨key, isKey⟩
    obtain ⟨pathKey, isPathKey, _⟩ := except_bind_ok _ _ _ isKey
    rw [schemaPathKey] at isPathKey
    split at isPathKey
    · cases isPathKey
    · rename_i valid
      rw [not_or] at valid
      refine ⟨fun empty => valid.1 (by simp [empty]), fun member => valid.2 ?_⟩
      exact List.any_eq_true.mpr ⟨[], member, rfl⟩
  · rintro ⟨filled, parts⟩
    refine ⟨joinText [0] (path.map toLowerCase) ++ [1] ++ name, ?_⟩
    rw [schemaKey, schemaPathKey, if_neg]
    · rfl
    · rintro (empty | part)
      · exact filled (List.isEmpty_iff.mp empty)
      · obtain ⟨part, member, empty⟩ := List.any_eq_true.mp part
        rw [List.isEmpty_iff] at empty
        exact parts (empty ▸ member)

private theorem holds_functions (log : List Registration) (registry : FunctionRegistry)
    (built : build toLowerCase object log = .ok registry) (name : Text) (ref : Nat) :
    Holds registry.functions name ref ↔ (object ref).name = name ∧ .register ref ∈ log := by
  obtain ⟨_, added⟩ := build_added toLowerCase object log registry built
  rw [added.functions]
  constructor
  · rintro (⟨_, none, _⟩ | ⟨member, named⟩)
    · cases none
    · exact ⟨named, member⟩
  · rintro ⟨named, member⟩
    exact .inr ⟨member, named⟩

private theorem namedCandidates_spec (log : List Registration) (registry : FunctionRegistry)
    (built : build toLowerCase object log = .ok registry) (name : Text) :
    (∃ candidates, namedCandidates registry name = .ok candidates ∧ candidates ≠ [] ∧
        ∀ ref, ref ∈ candidates ↔ (object ref).name = name ∧ .register ref ∈ log) ∨
      namedCandidates registry name = .error (.unknownFunction name) ∧
        ∀ ref, ¬ ((object ref).name = name ∧ .register ref ∈ log) := by
  obtain ⟨filled, _⟩ := build_added toLowerCase object log registry built
  have held := holds_functions toLowerCase object log registry built name
  rcases bucket_cases registry.functions filled.functions name with
    ⟨absent, none⟩ | ⟨first, rest, found, members⟩
  · exact .inr ⟨by rw [namedCandidates, absent], fun ref named => none ref ((held ref).mpr named)⟩
  · exact .inl ⟨first :: rest, by rw [namedCandidates, found], List.cons_ne_nil _ _,
      fun ref => (members ref).trans (held ref)⟩

section

variable (log : List Registration) (registry : FunctionRegistry)
  (built : build toLowerCase object log = .ok registry) (name : Text) (context : OverloadContext)
  (plain : PlainNames toLowerCase object log name context)

include built plain

private theorem holds_bySchema (path : List Text) (isPath : context.schemaPath = some path)
    (key : Text) (isKey : schemaKey toLowerCase path name = .ok key) (ref : Nat) :
    Holds registry.bySchema key ref ↔
      (object ref).name = name ∧ DeclaredIn toLowerCase log path ref := by
  obtain ⟨_, added⟩ := build_added toLowerCase object log registry built
  rw [added.bySchema]
  constructor
  · rintro (⟨_, none, _⟩ | ⟨_, member, declared, catalogName, rfl, listed⟩)
    · cases none
    · obtain ⟨same, named⟩ := schemaKey_inj toLowerCase declared path _ name key listed isKey
        (plain.paths ref declared catalogName member) (plain.path path isPath)
        (plain.names ref declared catalogName member) plain.name
      exact ⟨named, declared, catalogName, member, same⟩
  · rintro ⟨rfl, declared, catalogName, member, same⟩
    obtain ⟨other, isOther⟩ :=
      build_valid toLowerCase object log registry built ref declared catalogName member
    obtain rfl := schemaKey_same toLowerCase declared path _ other key same isOther isKey
    exact .inr ⟨_, member, declared, catalogName, rfl, isOther⟩

private theorem holds_byCatalog (path : List Text) (isPath : context.schemaPath = some path)
    (key : Text) (isKey : schemaKey toLowerCase path name = .ok key) (catalog : Text)
    (isCatalog : context.catalogName = some catalog) (ref : Nat) :
    Holds registry.byCatalog (catalogKey toLowerCase catalog key) ref ↔
      (object ref).name = name ∧ DeclaredInCatalog toLowerCase log catalog path ref := by
  obtain ⟨_, added⟩ := build_added toLowerCase object log registry built
  rw [added.byCatalog]
  constructor
  · rintro (⟨_, none, _⟩ | ⟨_, member, declared, catalogName, inSchema, filled, rfl, listed, same⟩)
    · cases none
    · simp only [catalogKey, List.append_assoc, List.singleton_append] at same
      obtain ⟨catalogs, keys⟩ := append_delimiter_inj (0 : CodeUnit) _ _ _ _
        (plain.catalogs ref declared catalogName member) (plain.catalog catalog isCatalog) same
      subst keys
      obtain ⟨schemas, named⟩ := schemaKey_inj toLowerCase declared path _ name inSchema listed isKey
        (plain.paths ref declared _ member) (plain.path path isPath)
        (plain.names ref declared _ member) plain.name
      exact ⟨named, declared, catalogName, filled, member, catalogs, schemas⟩
  · rintro ⟨rfl, declared, catalogName, filled, member, catalogs, schemas⟩
    obtain ⟨other, isOther⟩ :=
      build_valid toLowerCase object log registry built ref declared _ member
    obtain rfl := schemaKey_same toLowerCase declared path _ other key schemas isOther isKey
    exact .inr ⟨_, member, declared, catalogName, other, filled, rfl, isOther, by
      rw [catalogKey, catalogKey, catalogs]⟩

/-- No schema is listed for a name exactly when no schema declares it. -/
private theorem schemasFor_isEmpty :
    schemasFor registry name = [] ↔ ∀ other declared catalogName, (object other).name = name →
      .registerInSchema other declared catalogName ∉ log := by
  obtain ⟨filled, added⟩ := build_added toLowerCase object log registry built
  rw [schemasFor, List.filterMap_eq_nil_iff]
  constructor
  · rintro none ref declared catalogName rfl member
    obtain ⟨key, isKey⟩ :=
      build_valid toLowerCase object log registry built ref declared catalogName member
    obtain ⟨bucket, held, _⟩ :=
      (added.bySchema key ref).mpr (.inr ⟨_, member, declared, catalogName, rfl, isKey⟩)
    have listed : key ∈ registry.bySchema.keys := by
      rw [OrderedMap.mem_keys_iff, held]
      rfl
    have absent := none key listed
    obtain ⟨_, rfl⟩ := schemaKey_ok toLowerCase declared _ key isKey
    rw [splitKey_eq _ _ plain.name, if_pos rfl] at absent
    cases absent
  · intro none key listed
    rw [OrderedMap.mem_keys_iff, Option.isSome_iff_exists] at listed
    obtain ⟨bucket, held⟩ := listed
    cases bucket with
    | nil => exact absurd held (filled.bySchema key)
    | cons ref rest =>
        rcases (added.bySchema key ref).mp ⟨_, held, List.mem_cons_self⟩ with
          ⟨_, before, _⟩ | ⟨_, member, declared, catalogName, rfl, isKey⟩
        · cases before
        · obtain ⟨_, rfl⟩ := schemaKey_ok toLowerCase declared _ key isKey
          rw [splitKey_eq _ _ (plain.names ref declared catalogName member), if_neg]
          intro named
          exact none ref declared catalogName named member

private theorem catalogBucket_cases (path : List Text) (isPath : context.schemaPath = some path)
    (key : Text) (isKey : schemaKey toLowerCase path name = .ok key) :
    catalogBucket toLowerCase registry key context.catalogName = none ∧
        (∀ ref, (object ref).name = name → ¬ InCatalog toLowerCase log context path ref) ∨
      ∃ first rest,
        catalogBucket toLowerCase registry key context.catalogName = some (first :: rest) ∧
        ∀ ref, ref ∈ first :: rest ↔
          (object ref).name = name ∧ InCatalog toLowerCase log context path ref := by
  obtain ⟨filled, _⟩ := build_added toLowerCase object log registry built
  match isCatalog : context.catalogName with
  | none => exact .inl ⟨rfl, fun _ _ ⟨_, same, _⟩ => nomatch isCatalog.symm.trans same⟩
  | some [] =>
      refine .inl ⟨rfl, fun _ _ ⟨_, same, filled, _⟩ => ?_⟩
      cases isCatalog.symm.trans same
      exact filled rfl
  | some (unit :: rest) =>
      have held := holds_byCatalog toLowerCase object log registry built name context plain path
        isPath key isKey (unit :: rest) isCatalog
      have inCatalog (ref : Nat) : InCatalog toLowerCase log context path ref ↔
          DeclaredInCatalog toLowerCase log (unit :: rest) path ref := by
        constructor
        · rintro ⟨catalog, same, _, declared⟩
          cases isCatalog.symm.trans same
          exact declared
        · exact fun declared => ⟨_, isCatalog, List.cons_ne_nil _ _, declared⟩
      rcases bucket_cases registry.byCatalog filled.byCatalog
          (catalogKey toLowerCase (unit :: rest) key) with
        ⟨absent, none⟩ | ⟨first, others, found, members⟩
      · exact .inl ⟨absent, fun ref named declared =>
          none ref ((held ref).mpr ⟨named, (inCatalog ref).mp declared⟩)⟩
      · exact .inr ⟨first, others, found, fun ref => by
          rw [members ref, held ref, inCatalog ref]⟩

private theorem schemaCandidates_spec (path : List Text)
    (isPath : context.schemaPath = some path) (key : Text)
    (isKey : schemaKey toLowerCase path name = .ok key) (valid : ValidPath path) :
    (∃ candidates,
        schemaCandidates toLowerCase registry name path context.catalogName = .ok candidates ∧
        candidates ≠ [] ∧
        ∀ ref, ref ∈ candidates ↔ InScope toLowerCase object log name context ref) ∨
      (∃ fault,
        schemaCandidates toLowerCase registry name path context.catalogName = .error fault) ∧
        ∀ ref, ¬ InScope toLowerCase object log name context ref := by
  obtain ⟨filled, _⟩ := build_added toLowerCase object log registry built
  have held := holds_bySchema toLowerCase object log registry built name context plain path isPath
    key isKey
  have listed := schemasFor_isEmpty toLowerCase object log registry built name context plain
  unfold InScope
  rw [schemaCandidates, isKey, except_ok_bind, isPath]
  dsimp only
  rcases catalogBucket_cases toLowerCase object log registry built name context plain path isPath key
      isKey with ⟨noCatalog, notInCatalog⟩ | ⟨first, rest, found, members⟩
  · rw [noCatalog]
    rcases bucket_cases registry.bySchema filled.bySchema key with
      ⟨absent, none⟩ | ⟨first, rest, found, members⟩
    · rw [absent]
      have undeclared (ref : Nat) (named : (object ref).name = name) :
          ¬ DeclaredIn toLowerCase log path ref :=
        fun declared => none ref ((held ref).mpr ⟨named, declared⟩)
      rcases namedCandidates_spec toLowerCase object log registry built name with
        ⟨candidates, found, nonempty, members⟩ | ⟨failed, none⟩
      · rw [found, except_ok_bind]
        by_cases unlisted : schemasFor registry name = []
        · have nowhere := listed.mp unlisted
          refine .inl ⟨candidates, by rw [unlisted]; rfl, nonempty, fun ref => ?_⟩
          rw [members ref]
          constructor
          · rintro ⟨named, member⟩
            exact ⟨named, valid, .inr (.inr ⟨nowhere, member⟩)⟩
          · rintro ⟨named, _, inCatalog | ⟨_, declared⟩ | ⟨_, member⟩⟩
            · exact absurd inCatalog (notInCatalog ref named)
            · exact absurd declared (undeclared ref named)
            · exact ⟨named, member⟩
        · refine .inr ⟨⟨.notInSchema name path (schemasFor registry name), ?_⟩, ?_⟩
          · rw [if_neg (by simpa using unlisted)]
          · rintro ref ⟨named, _, inCatalog | ⟨_, declared⟩ | ⟨nowhere, _⟩⟩
            · exact notInCatalog ref named inCatalog
            · exact undeclared ref named declared
            · exact unlisted (listed.mpr nowhere)
      · rw [failed, except_error_bind]
        refine .inr ⟨⟨_, rfl⟩, ?_⟩
        rintro ref ⟨named, _, inCatalog | ⟨_, declared⟩ | ⟨_, member⟩⟩
        · exact notInCatalog ref named inCatalog
        · exact undeclared ref named declared
        · exact none ref ⟨named, member⟩
    · rw [found]
      refine .inl ⟨first :: rest, rfl, List.cons_ne_nil _ _, fun ref => ?_⟩
      rw [members ref, held ref]
      constructor
      · rintro ⟨named, declared⟩
        exact ⟨named, valid, .inr (.inl ⟨notInCatalog, declared⟩)⟩
      · rintro ⟨named, _, inCatalog | ⟨_, declared⟩ | ⟨undeclared, _⟩⟩
        · exact absurd inCatalog (notInCatalog ref named)
        · exact ⟨named, declared⟩
        · obtain ⟨named', declared, catalogName, member, _⟩ :=
            (held first).mp ((members first).mp List.mem_cons_self)
          exact absurd member (undeclared first declared catalogName named')
  · rw [found]
    refine .inl ⟨first :: rest, rfl, List.cons_ne_nil _ _, fun ref => ?_⟩
    rw [members ref]
    obtain ⟨namedFirst, inCatalogFirst⟩ := (members first).mp List.mem_cons_self
    constructor
    · rintro ⟨named, inCatalog⟩
      exact ⟨named, valid, .inl inCatalog⟩
    · rintro ⟨named, _, inCatalog | ⟨none, _⟩ | ⟨undeclared, _⟩⟩
      · exact ⟨named, inCatalog⟩
      · exact absurd inCatalogFirst (none first namedFirst)
      · obtain ⟨_, _, _, declared, catalogName, _, member, _⟩ := inCatalogFirst
        exact absurd member (undeclared first declared _ namedFirst)

end

/-- A lookup finds the functions in scope, and fails only where there is none. -/
theorem scopedCandidates_spec (log : List Registration) (registry : FunctionRegistry)
    (built : build toLowerCase object log = .ok registry) (name : Text) (context : OverloadContext)
    (plain : PlainNames toLowerCase object log name context) :
    (∃ candidates, scopedCandidates toLowerCase registry name context = .ok candidates ∧
        candidates ≠ [] ∧
        ∀ ref, ref ∈ candidates ↔ InScope toLowerCase object log name context ref) ∨
      (∃ fault, scopedCandidates toLowerCase registry name context = .error fault) ∧
        ∀ ref, ¬ InScope toLowerCase object log name context ref := by
  have byName := namedCandidates_spec toLowerCase object log registry built name
  unfold scopedCandidates
  cases isPath : context.schemaPath with
  | none =>
      unfold InScope
      rw [isPath]
      rcases byName with found | ⟨failed, none⟩
      · exact .inl found
      · exact .inr ⟨⟨_, failed⟩, none⟩
  | some path =>
      have valid := schemaKey_valid toLowerCase path name
      dsimp only
      cases isKey : schemaKey toLowerCase path name with
      | error fault =>
          refine .inr ⟨⟨fault, by rw [schemaCandidates, isKey]; rfl⟩, fun ref inScope => ?_⟩
          rw [InScope, isPath] at inScope
          obtain ⟨key, found⟩ := valid.mpr inScope.2.1
          cases isKey.symm.trans found
      | ok key =>
          exact schemaCandidates_spec toLowerCase object log registry built name context plain path
            isPath key isKey (valid.mp ⟨key, isKey⟩)

end

end VgiWorker.Functions.Registry
