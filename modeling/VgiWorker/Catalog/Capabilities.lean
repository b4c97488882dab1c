import Mathlib.Order.Bounds.Basic
import VgiWorker.Arrow.TextLess
import VgiWorker.Data.Pruning
import VgiWorker.Data.Result

/-!
# Catalog capability selection

A catalog advertises profiles by category and a client offers some. A profile is
selected only together with its prerequisites, and those of DDL in transactions
only by a catalog that has transactions.
-/

set_option autoImplicit false

namespace VgiWorker.Catalog.Capabilities

open Js Arrow

inductive Category where
  | read
  | ddl
  | write
  | transaction
  deriving DecidableEq

def categories : List Category :=
  [.read, .ddl, .write, .transaction]

/-- The profiles of each category; one that is left out has none. -/
structure CatalogCapabilities where
  read : List Text
  ddl : List Text
  write : List Text
  transaction : List Text

def CatalogCapabilities.get (capabilities : CatalogCapabilities) : Category → List Text
  | .read => capabilities.read
  | .ddl => capabilities.ddl
  | .write => capabilities.write
  | .transaction => capabilities.transaction

def constraintRecordsRead : Text := text "vgi.constraint.records.read.v1"
def rowScalarExpression : Text := text "vgi.expression.duckdb.scalar.v1"
def constraintCreate : Text := text "vgi.constraint.create.v1"
def constraintMutate : Text := text "vgi.constraint.mutate.v1"
def constraintEnforce : Text := text "vgi.constraint.enforce.v1"
def transactionDdl : Text := text "vgi.transaction.ddl.v1"

/-- `REQUIRES`. -/
def requiresTable : OrderedMap Text (List Text) :=
  .ofEntries
    [(rowScalarExpression, [constraintRecordsRead]),
      (constraintCreate, [constraintRecordsRead, constraintEnforce]),
      (constraintMutate, [constraintRecordsRead]),
      (constraintEnforce, [constraintRecordsRead]),
      (text "vgi.index.definition.create.v1", [text "vgi.index.definition.read.v1"]),
      (text "vgi.index.drop.v1", [text "vgi.index.definition.read.v1"])]

/-- The category of a profile in `KNOWN`. -/
def homeOf (profile : Text) : Category :=
  if profile ∈ [constraintCreate, constraintMutate, text "vgi.index.definition.create.v1",
      text "vgi.index.drop.v1"] then .ddl
  else if profile = constraintEnforce then .write
  else if profile = transactionDdl then .transaction
  else .read

/-- The members that every object inherits. -/
def objectPrototype : List Text :=
  ["constructor", "hasOwnProperty", "isPrototypeOf", "propertyIsEnumerable", "toLocaleString",
    "toString", "valueOf", "__proto__", "__defineGetter__", "__defineSetter__", "__lookupGetter__",
    "__lookupSetter__"].map text

/-! ## `catalogCapabilities` -/

def catalogCapabilities (init : CatalogCapabilities) : CatalogCapabilities where
  read := sortedSet init.read
  ddl := sortedSet init.ddl
  write := sortedSet init.write
  transaction := sortedSet init.transaction

def noCapabilities : CatalogCapabilities :=
  ⟨[], [], [], []⟩

/-! ## `selectCatalogCapabilities` -/

/-- What a client sends of itself: its `ClientCapabilities`, encoded or not, or nothing. -/
inductive ClientOffer where
  | absent
  | encoded (bytes : Bytes)
  | record (catalog : Option Bytes)

section

variable (decodeClient : Bytes → Except Text (Option Bytes))
  (decodeCatalogCapabilities : Bytes → Except Text CatalogCapabilities)

def offeredCatalog (client : ClientOffer) : Except Text (Option CatalogCapabilities) := do
  let catalog ←
    match client with
    | .absent => .ok none
    | .encoded bytes => decodeClient bytes
    | .record catalog => .ok catalog
  match catalog with
  | none => .ok none
  | some bytes => some <$> decodeCatalogCapabilities bytes

section

variable (requires : OrderedMap Text (List Text))

/-- `REQUIRES[profile] ?? []` -/
def prerequisites (profile : Text) : List Text :=
  (requires.get? profile).getD []

/-- An inherited member of the table has no `some`. -/
def lookUp (profile : Text) : Except Text Unit :=
  if requires.has profile = false ∧ profile ∈ objectPrototype then
    .error (text "(REQUIRES[p] ?? []).some is not a function")
  else .ok ()

/-- The profiles that are both available and offered in some category. -/
def chosenProfiles (available offered : CatalogCapabilities) : List Text :=
  (categories.flatMap fun category =>
    (available.get category).filter fun profile => (offered.get category).contains profile).eraseDups

def selectCatalogCapabilities (available : CatalogCapabilities) (client : ClientOffer)
    (supportsTransactions : Bool) : Except Text CatalogCapabilities := do
  match ← offeredCatalog decodeClient decodeCatalogCapabilities client with
  | none => .ok (catalogCapabilities noCapabilities)
  | some offered => do
      let all := chosenProfiles available offered
      let chosen := if supportsTransactions then all else all.erase transactionDdl
      -- The first pass looks every profile up, and the later ones look up no other.
      let _ ← chosen.mapM (lookUp requires)
      let kept := Data.prune (prerequisites requires) chosen
      let pick (category : Category) := (available.get category).filter kept.contains
      .ok (catalogCapabilities ⟨pick .read, pick .ddl, pick .write, pick .transaction⟩)

end

end

/-! ## The largest selection -/

/-- A selection per category of what is available and offered there, a profile of `excluded`
apart, in which the prerequisites of each selected profile are selected in their categories. -/
structure Selection (needs : Text → List Text) (home : Text → Category)
    (available offered : CatalogCapabilities) (excluded : Set Text)
    (selected : Category → Set Text) : Prop where
  listed : ∀ category, ∀ profile ∈ selected category,
    profile ∈ available.get category ∧ profile ∈ offered.get category ∧ profile ∉ excluded
  closed : ∀ category, ∀ profile ∈ selected category, ∀ needed ∈ needs profile,
    needed ∈ selected (home needed)

/-- Each category lists the largest selection's profiles in ascending order. -/
def Selects (needs : Text → List Text) (home : Text → Category)
    (available offered : CatalogCapabilities) (excluded : Set Text)
    (result : CatalogCapabilities) : Prop :=
  ∃ selected, IsGreatest {selected | Selection needs home available offered excluded selected}
      selected ∧
    ∀ category, ((result.get category).Pairwise fun left right => textLess left right = true) ∧
      ∀ profile, profile ∈ result.get category ↔ profile ∈ selected category

/-- A profile both available and offered is so in its category, and offered wherever it is
available. -/
structure Placed (home : Text → Category) (available offered : CatalogCapabilities) : Prop where
  atHome : ∀ category profile, profile ∈ available.get category →
    profile ∈ offered.get category →
      profile ∈ available.get (home profile) ∧ profile ∈ offered.get (home profile)
  everywhere : ∀ category other profile, profile ∈ available.get category →
    profile ∈ offered.get category → profile ∈ available.get other → profile ∈ offered.get other

/-- What a catalog without transactions does not select. -/
def withoutTransactions (supportsTransactions : Bool) : Set Text :=
  {profile | supportsTransactions = false ∧ profile = transactionDdl}

theorem mem_chosenProfiles (available offered : CatalogCapabilities) (profile : Text) :
    profile ∈ chosenProfiles available offered ↔
      ∃ category, profile ∈ available.get category ∧ profile ∈ offered.get category := by
  have all : ∀ category : Category, category ∈ categories := fun category => by
    cases category <;> decide
  simp [chosenProfiles, all]

private theorem nodup_chosenProfiles (available offered : CatalogCapabilities) :
    (chosenProfiles available offered).Nodup :=
  nodup_eraseDups _

private theorem mem_chosen (available offered : CatalogCapabilities) (supportsTransactions : Bool)
    (profile : Text) :
    profile ∈ (if supportsTransactions then chosenProfiles available offered
        else (chosenProfiles available offered).erase transactionDdl) ↔
      (∃ category, profile ∈ available.get category ∧ profile ∈ offered.get category) ∧
        profile ∉ withoutTransactions supportsTransactions := by
  cases supportsTransactions with
  | true => simp [mem_chosenProfiles, withoutTransactions]
  | false =>
      rw [← mem_chosenProfiles, if_neg (by decide),
        (nodup_chosenProfiles available offered).mem_erase_iff]
      simp [withoutTransactions, and_comm]

theorem get_catalogCapabilities (init : CatalogCapabilities) (category : Category) :
    (catalogCapabilities init).get category = sortedSet (init.get category) := by
  cases category <;> rfl

/-- Pruning what is available and offered leaves the largest selection. -/
private theorem selects_prune (needs : Text → List Text) (home : Text → Category)
    (available offered : CatalogCapabilities) (excluded : Set Text) (chosen : List Text)
    (placed : Placed home available offered)
    (both : ∀ profile, profile ∈ chosen ↔
      (∃ category, profile ∈ available.get category ∧ profile ∈ offered.get category) ∧
        profile ∉ excluded)
    (result : CatalogCapabilities)
    (picked : ∀ category, result.get category =
      sortedSet ((available.get category).filter (Data.prune needs chosen).contains)) :
    Selects needs home available offered excluded result := by
  obtain ⟨⟨within, closed⟩, greatest⟩ := Data.prune_isGreatest needs chosen
  refine ⟨fun category => {profile | profile ∈ available.get category ∧
    profile ∈ Data.prune needs chosen}, ⟨⟨?_, ?_⟩, ?_⟩, fun category => ⟨?_, ?_⟩⟩
  · intro category profile ⟨listed, kept⟩
    obtain ⟨⟨other, isAvailable, isOffered⟩, included⟩ := (both profile).1 (within kept)
    exact ⟨listed, placed.everywhere other category profile isAvailable isOffered listed, included⟩
  · intro category profile ⟨_, kept⟩ needed isNeeded
    have keptToo := closed profile kept needed isNeeded
    obtain ⟨⟨other, isAvailable, isOffered⟩, _⟩ := (both needed).1 (within keptToo)
    exact ⟨(placed.atHome other needed isAvailable isOffered).1, keptToo⟩
  · intro selected isSelection category profile member
    -- The union of a selection's categories is a closed part of what is chosen.
    have upper := greatest (a := {profile | ∃ category, profile ∈ selected category})
      ⟨fun other ⟨category, there⟩ =>
        have listed := isSelection.listed category other there
        (both other).2 ⟨⟨category, listed.1, listed.2.1⟩, listed.2.2⟩,
        fun other ⟨category, there⟩ needed isNeeded =>
          ⟨home needed, isSelection.closed category other there needed isNeeded⟩⟩
    exact ⟨(isSelection.listed category profile member).1, upper ⟨category, member⟩⟩
  · rw [picked]
    exact pairwise_sortedSet _
  · intro profile
    rw [picked, mem_sortedSet]
    simp

private theorem mapM_lookUp (requires : OrderedMap Text (List Text)) (profiles : List Text)
    (plain : ∀ profile ∈ profiles, profile ∈ objectPrototype → requires.has profile = true) :
    ∃ found, profiles.mapM (lookUp requires) = .ok found := by
  refine except_mapM_exists (lookUp requires) profiles fun profile member => ⟨(), ?_⟩
  rw [lookUp, if_neg]
  rintro ⟨missing, inherited⟩
  simp [plain profile member inherited] at missing

/-- The selection is the largest one, for profiles that are offered in the categories they are
available in. -/
theorem selection_is_largest (decodeClient : Bytes → Except Text (Option Bytes))
    (decodeCatalogCapabilities : Bytes → Except Text CatalogCapabilities)
    (requires : OrderedMap Text (List Text)) (home : Text → Category)
    (available : CatalogCapabilities) (client : ClientOffer) (supportsTransactions : Bool)
    (sent : Option CatalogCapabilities)
    (decoded : offeredCatalog decodeClient decodeCatalogCapabilities client = .ok sent)
    (placed : Placed home available (sent.getD noCapabilities))
    (plain : ∀ category, ∀ profile ∈ available.get category,
      profile ∈ (sent.getD noCapabilities).get category →
        profile ∈ objectPrototype → requires.has profile = true) :
    ∃ result, selectCatalogCapabilities decodeClient decodeCatalogCapabilities requires available
        client supportsTransactions = .ok result ∧
      Selects (prerequisites requires) home available (sent.getD noCapabilities)
        (withoutTransactions supportsTransactions) result := by
  unfold selectCatalogCapabilities
  rw [decoded]
  cases sent with
  | none =>
      refine ⟨_, rfl, selects_prune _ _ _ _ _ [] placed ?_ _ ?_⟩
      · intro profile
        simp only [Option.getD_none, List.not_mem_nil, false_iff, not_and]
        rintro ⟨category, _, isOffered⟩
        cases category <;> cases isOffered
      · intro category
        have empty : Data.prune (prerequisites requires) [] = [] :=
          List.sublist_nil.1 (Data.prune_sublist _ _)
        have nothing : (available.get category).filter ([] : List Text).contains = [] :=
          List.filter_eq_nil_iff.2 (by simp)
        rw [get_catalogCapabilities, empty, nothing]
        cases category <;> rfl
  | some offered =>
      have both := mem_chosen available offered supportsTransactions
      obtain ⟨found, lookedUp⟩ := mapM_lookUp requires
        (if supportsTransactions then chosenProfiles available offered
          else (chosenProfiles available offered).erase transactionDdl)
        fun profile member inherited => by
          obtain ⟨⟨category, isAvailable, isOffered⟩, _⟩ := (both profile).1 member
          exact plain category profile isAvailable isOffered inherited
      rw [except_ok_bind]
      dsimp only
      rw [lookedUp]
      refine ⟨_, rfl, selects_prune _ _ _ _ _ _ placed both _ ?_⟩
      intro category
      rw [get_catalogCapabilities]
      cases category <;> rfl

/-- What a catalog advertises that serves and creates constraint records. -/
private def recordsAndCreation : CatalogCapabilities :=
  ⟨[rowScalarExpression, constraintRecordsRead], [constraintCreate], [constraintEnforce], []⟩

private theorem placed_recordsAndCreation : Placed homeOf recordsAndCreation recordsAndCreation := by
  refine ⟨fun category profile isAvailable _ => ?_, fun _ _ _ _ _ there => there⟩
  have atHome : ∀ profile ∈ recordsAndCreation.get category, homeOf profile = category := by
    cases category <;> decide +kernel
  rw [atHome profile isAvailable]
  exact ⟨isAvailable, isAvailable⟩

theorem records_and_creation_selected :
    ∃ result, selectCatalogCapabilities (fun _ => .ok none) (fun _ => .ok recordsAndCreation)
        requiresTable recordsAndCreation (.record (some [])) true = .ok result ∧
      Selects (prerequisites requiresTable) homeOf recordsAndCreation recordsAndCreation
        (withoutTransactions true) result :=
  selection_is_largest (fun _ => .ok none) (fun _ => .ok recordsAndCreation) requiresTable homeOf
    recordsAndCreation (.record (some [])) true (some recordsAndCreation) rfl
    placed_recordsAndCreation fun category => by
      have own : ∀ profile ∈ recordsAndCreation.get category,
          profile ∈ objectPrototype → requiresTable.has profile = true := by
        cases category <;> decide +kernel
      exact fun profile member _ => own profile member

/-- A catalog without transactions that advertises DDL in them, to a client that offers it. -/
private def transactionOnly : CatalogCapabilities :=
  ⟨[], [], [], [transactionDdl]⟩

private theorem select_transactionOnly :
    selectCatalogCapabilities (fun _ => .ok none) (fun _ => .ok transactionOnly) requiresTable
      transactionOnly (.record (some [])) false = .ok noCapabilities := by
  have none : (chosenProfiles transactionOnly transactionOnly).erase transactionDdl = [] := by
    decide +kernel
  have empty : Data.prune (prerequisites requiresTable) [] = [] :=
    List.sublist_nil.1 (Data.prune_sublist _ _)
  have offered : offeredCatalog (fun _ => .ok .none) (fun _ => .ok transactionOnly)
      (.record (some [])) = .ok (some transactionOnly) := rfl
  unfold selectCatalogCapabilities
  rw [offered, except_ok_bind]
  dsimp only
  rw [if_neg (by decide), none, List.mapM_nil]
  change Except.ok _ = _
  have noneKept : ∀ category, (transactionOnly.get category).filter ([] : List Text).contains = [] :=
    fun category => List.filter_eq_nil_iff.2 (by simp)
  rw [empty]
  simp only [noneKept]
  simp [catalogCapabilities, sortedSet, noCapabilities]

/-- The prerequisites of DDL in transactions hold, and it is not selected. -/
theorem transactions_not_selected :
    ¬∀ (decodeClient : Bytes → Except Text (Option Bytes))
      (decodeCatalogCapabilities : Bytes → Except Text CatalogCapabilities)
      (requires : OrderedMap Text (List Text)) (home : Text → Category)
      (available : CatalogCapabilities) (client : ClientOffer) (supportsTransactions : Bool)
      (sent : Option CatalogCapabilities),
      offeredCatalog decodeClient decodeCatalogCapabilities client = .ok sent →
        ∃ result, selectCatalogCapabilities decodeClient decodeCatalogCapabilities requires
            available client supportsTransactions = .ok result ∧
          Selects (prerequisites requires) home available (sent.getD noCapabilities) ∅ result := by
  intro largest
  obtain ⟨result, selects, selected, ⟨_, greatest⟩, listed⟩ := largest (fun _ => .ok none)
    (fun _ => .ok transactionOnly) requiresTable (fun _ => .transaction) transactionOnly
    (.record (some [])) false (some transactionOnly) rfl
  rw [select_transactionOnly] at selects
  cases selects
  have alone : Selection (prerequisites requiresTable) (fun _ => .transaction) transactionOnly
      transactionOnly ∅ fun category => {profile | category = .transaction ∧
        profile = transactionDdl} := by
    refine ⟨?_, ?_⟩
    · rintro category profile ⟨rfl, rfl⟩
      exact ⟨List.mem_singleton.2 rfl, List.mem_singleton.2 rfl, nofun⟩
    · rintro category profile ⟨rfl, rfl⟩ needed isNeeded
      have noneNeeded : prerequisites requiresTable transactionDdl = [] := by decide +kernel
      rw [noneNeeded] at isNeeded
      cases isNeeded
  have member := greatest alone .transaction (show _ ∧ _ from ⟨rfl, rfl⟩)
  have shown := ((listed .transaction).2 transactionDdl).2 member
  cases shown

end VgiWorker.Catalog.Capabilities
