import Mathlib.Data.List.Sort
import VgiWorker.Arguments.ArgumentSpec
import VgiWorker.Functions.Registry

/-!
# Argument specs and their schema

The specs that the `define*` helpers build, the schema that discovery shows for them, and
the specs read back from it. Parameters are `safeJson` and the order of names, which
follows the locale.
-/

set_option autoImplicit false

namespace VgiWorker.ArgumentSpecs

open VgiWorker.Js VgiWorker.Arrow
open VgiWorker.Functions.Registry (Position)

structure ArgumentSpec where
  name : Text
  position : Position
  arrowType : DataType
  isTableInput : Option Bool
  isAnyType : Option Bool
  isVarargs : Option Bool
  isConst : Option Bool
  doc : Option Text
  defaultJson : Option Text
  choicesJson : Option Text
  rangeNotation : Option Text
  pattern : Option Text

/-! ## What the helpers build -/

/-- The constraint fields of a spec. -/
structure SpecFields where
  defaultJson : Option Text
  choicesJson : Option Text
  rangeNotation : Option Text
  pattern : Option Text

def noFields : SpecFields :=
  ⟨none, none, none, none⟩

/-- An argument before its position is known. -/
structure Declared where
  name : Text
  named : Bool
  arrowType : DataType
  isTableInput : Option Bool := none
  isAnyType : Option Bool := none
  isVarargs : Option Bool := none
  isConst : Option Bool := none
  doc : Option Text := none
  fields : SpecFields := noFields

def Declared.spec (declared : Declared) (position : Position) : ArgumentSpec where
  name := declared.name
  position := position
  arrowType := declared.arrowType
  isTableInput := declared.isTableInput
  isAnyType := declared.isAnyType
  isVarargs := declared.isVarargs
  isConst := declared.isConst
  doc := declared.doc
  defaultJson := declared.fields.defaultJson
  choicesJson := declared.fields.choicesJson
  rangeNotation := declared.fields.rangeNotation
  pattern := declared.fields.pattern

/-- The specs in order, with `posIdx` counting the positional ones. -/
def specsOf : Nat → List Declared → List ArgumentSpec
  | _, [] => []
  | posIdx, declared :: rest =>
      if declared.named then declared.spec (.named declared.name) :: specsOf posIdx rest
      else declared.spec (.index posIdx) :: specsOf (posIdx + 1) rest

section

variable (safeJson : Value → Text)

/-- The constraints of an argument, with their `default`. -/
structure RawConstraints where
  constraints : ArgumentConstraints
  default : Option Value

def constraintSpecFields (constraints : Option RawConstraints) (runtimeDefault : Option Value) :
    SpecFields where
  defaultJson := (runtimeDefault.or (constraints.bind RawConstraints.default)).map safeJson
  choicesJson := (constraints.bind fun raw => raw.constraints.choices).map fun choices =>
    safeJson (.array choices)
  rangeNotation := constraints.bind fun raw =>
    formatRange raw.constraints.ge raw.constraints.le raw.constraints.gt raw.constraints.lt
  pattern := constraints.bind fun raw => raw.constraints.pattern

/-- What a helper's configuration says of its arguments. -/
structure ArgsConfig where
  args : List (Text × DataType)
  namedArgs : List (Text × DataType)
  argDocs : Text → Option Text
  argConstraints : Text → Option RawConstraints
  argDefaults : Text → Option Value

/-- `isNull(type) ? nullType() : type`. -/
def declaredType (type : DataType) : DataType :=
  if type.isNull then .null else type

def plainArg (config : ArgsConfig) (named : Bool) (arg : Text × DataType) : Declared where
  name := arg.1
  named := named
  arrowType := arg.2
  doc := config.argDocs arg.1
  fields := constraintSpecFields safeJson (config.argConstraints arg.1) (config.argDefaults arg.1)

def tableInput : Declared where
  name := text "data"
  named := false
  arrowType := .null
  isTableInput := some true

def defineTableInOutFunction (config : ArgsConfig) : List ArgumentSpec :=
  specsOf 0 (config.args.map (plainArg safeJson config false) ++
    tableInput :: config.namedArgs.map (plainArg safeJson config true))

def defineTableBufferingFunction (config : ArgsConfig) : List ArgumentSpec :=
  specsOf 0 (config.args.map (plainArg safeJson config false) ++
    tableInput :: config.namedArgs.map (plainArg safeJson config true))

structure VarargsConfig where
  name : Text
  type : DataType
  doc : Option Text

def rowArg (config : ArgsConfig) (arg : Text × DataType) : Declared where
  name := arg.1
  named := false
  arrowType := declaredType arg.2
  isAnyType := some arg.2.isNull
  doc := config.argDocs arg.1
  fields := constraintSpecFields safeJson (config.argConstraints arg.1) none

def rowVarargs (config : ArgsConfig) (varargs : VarargsConfig) : Declared where
  name := varargs.name
  named := false
  arrowType := declaredType varargs.type
  isAnyType := some varargs.type.isNull
  isVarargs := some true
  doc := varargs.doc.or (config.argDocs varargs.name)
  fields := constraintSpecFields safeJson (config.argConstraints varargs.name) none

def defineRowTransformFunction (config : ArgsConfig) (varargs : Option VarargsConfig) :
    List ArgumentSpec :=
  specsOf 0 (config.args.map (rowArg safeJson config) ++
    (varargs.toList.map (rowVarargs safeJson config) ++
      config.namedArgs.map (plainArg safeJson config true)))

def tableArg (config : ArgsConfig) (varargs : List Text) (arg : Text × DataType) : Declared where
  name := arg.1
  named := (config.argDefaults arg.1).isSome
  arrowType := declaredType arg.2
  isAnyType := some arg.2.isNull
  isVarargs := some (varargs.contains arg.1)
  doc := config.argDocs arg.1
  fields := constraintSpecFields safeJson (config.argConstraints arg.1) (config.argDefaults arg.1)

def defineTableFunction (config : ArgsConfig) (varargs : List Text) : List ArgumentSpec :=
  specsOf 0 (config.args.map (tableArg safeJson config varargs))

/-- A constant parameter stays positional whether or not it has a default. -/
def aggregateArg (config : ArgsConfig) (varargs constParams : List Text) (arg : Text × DataType) :
    Declared where
  name := arg.1
  named := !constParams.contains arg.1 && (config.argDefaults arg.1).isSome
  arrowType := declaredType arg.2
  isAnyType := some arg.2.isNull
  isVarargs := some (varargs.contains arg.1)
  isConst := some (constParams.contains arg.1)
  fields := constraintSpecFields safeJson (config.argConstraints arg.1) (config.argDefaults arg.1)

def defineAggregate (config : ArgsConfig) (varargs constParams : List Text) : List ArgumentSpec :=
  specsOf 0 (config.args.map (aggregateArg safeJson config varargs constParams))

/-- One entry of the ordered parameter list of a scalar function. -/
structure ScalarParameter where
  name : Text
  type : DataType
  const : Option Bool
  varargs : Option Bool
  doc : Option Text
  constraints : RawConstraints

def scalarParameter (parameter : ScalarParameter) : Declared where
  name := parameter.name
  named := false
  arrowType := declaredType parameter.type
  isAnyType := some parameter.type.isNull
  isConst := parameter.const
  isVarargs := parameter.varargs
  doc := parameter.doc
  fields := constraintSpecFields safeJson (some parameter.constraints) none

def defineScalarFunction (parameters : List ScalarParameter) : List ArgumentSpec :=
  specsOf 0 (parameters.map (scalarParameter safeJson))

def legacyParam (argDocs : Text → Option Text) (param : Text × DataType) : Declared where
  name := param.1
  named := false
  arrowType := declaredType param.2
  isAnyType := some param.2.isNull
  doc := argDocs param.1

def legacyConstParam (argDocs : Text → Option Text) (param : Text × DataType) : Declared where
  name := param.1
  named := false
  arrowType := param.2
  isConst := some true
  doc := argDocs param.1

/-- `defineScalarFunction` without an ordered list: the parameters, then the constant ones. -/
def defineLegacyScalarFunction (params constParams : List (Text × DataType))
    (argDocs : Text → Option Text) : List ArgumentSpec :=
  specsOf 0 (params.map (legacyParam argDocs) ++ constParams.map (legacyConstParam argDocs))

def copyOption (option : Text × DataType × Option Text) : Declared where
  name := option.1
  named := true
  arrowType := option.2.1
  doc := option.2.2

def defineCopyFromFunction (options : List (Text × DataType × Option Text)) : List ArgumentSpec :=
  specsOf 0 (options.map copyOption)

/-- The documentation of a COPY option replaces that of its spec. -/
def withOptionDoc (optionDocs : Text → Option Text) (spec : ArgumentSpec) : ArgumentSpec :=
  if spec.isTableInput = some true then spec
  else
    match optionDocs spec.name with
    | some (unit :: rest) => { spec with doc := some (unit :: rest) }
    | _ => spec

def defineCopyToFunction (config : ArgsConfig) (optionDocs : Text → Option Text) :
    List ArgumentSpec :=
  (defineTableBufferingFunction safeJson config).map (withOptionDoc optionDocs)

end

/-! ## The schema -/

section

variable (localeLe : Text → Text → Bool)

/-- The order of positions: by number, then the names; `localeLe` tells whether `localeCompare` is
at most zero. -/
def positionLe : Position → Position → Bool
  | .index left, .index right => decide (left ≤ right)
  | .index _, .named _ => true
  | .named _, .index _ => false
  | .named left, .named right => localeLe left right

def specLe (left right : ArgumentSpec) : Prop :=
  positionLe localeLe left.position right.position = true

instance (left right : ArgumentSpec) : Decidable (specLe localeLe left right) :=
  inferInstanceAs (Decidable (positionLe localeLe left.position right.position = true))

def vgiArgKey : Text := text "vgi_arg"
def vgiTypeKey : Text := text "vgi_type"
def vgiVarargsKey : Text := text "vgi_varargs"
def vgiConstKey : Text := text "vgi_const"
def vgiDocKey : Text := text "vgi_doc"
def vgiDefaultKey : Text := text "vgi_default"
def vgiChoicesKey : Text := text "vgi_choices"
def vgiRangeKey : Text := text "vgi_range"
def vgiPatternKey : Text := text "vgi_pattern"

def isNamed : Position → Bool
  | .index _ => false
  | .named _ => true

/-- A text that is not empty. -/
def filledText : Option Text → Option Text
  | some (unit :: rest) => some (unit :: rest)
  | _ => none

/-- The keys in the order they are set, each with its value where it is set. -/
def metadataEntries (spec : ArgumentSpec) : List (Text × Option Text) :=
  [(vgiArgKey, if isNamed spec.position then some (text "named") else none),
    (vgiTypeKey,
      if spec.isTableInput = some true then some (text "table")
      else if spec.isAnyType = some true then some (text "any")
      else none),
    (vgiVarargsKey, if spec.isVarargs = some true then some (text "true") else none),
    (vgiConstKey, if spec.isConst = some true then some (text "true") else none),
    (vgiDocKey, filledText spec.doc),
    (vgiDefaultKey, spec.defaultJson),
    (vgiChoicesKey, spec.choicesJson),
    (vgiRangeKey, spec.rangeNotation),
    (vgiPatternKey, spec.pattern)]

def presentEntries (entries : List (Text × Option Text)) : Metadata :=
  OrderedMap.ofEntries (entries.filterMap fun entry => entry.2.map fun value => (entry.1, value))

def specField (spec : ArgumentSpec) : Field :=
  ⟨spec.name, spec.arrowType, true, presentEntries (metadataEntries spec)⟩

/-- The sort is stable. -/
def argumentSpecsToSchema (specs : List ArgumentSpec) : Schema :=
  ⟨(specs.insertionSort (specLe localeLe)).map specField, .empty⟩

end

def fieldSpec (field : Field) (position : Position) : ArgumentSpec where
  name := field.name
  position := position
  arrowType := field.type
  isTableInput := some (decide (field.metadata.get? vgiTypeKey = some (text "table")))
  isAnyType := some (decide (field.metadata.get? vgiTypeKey = some (text "any")))
  isVarargs := some (decide (field.metadata.get? vgiVarargsKey = some (text "true")))
  isConst := some (decide (field.metadata.get? vgiConstKey = some (text "true")))
  doc := some ((field.metadata.get? vgiDocKey).getD [])
  defaultJson := field.metadata.get? vgiDefaultKey
  choicesJson := field.metadata.get? vgiChoicesKey
  rangeNotation := field.metadata.get? vgiRangeKey
  pattern := field.metadata.get? vgiPatternKey

/-- The fields read in order, with `positionIndex` counting the positional ones. -/
def fieldSpecs : Nat → List Field → List ArgumentSpec
  | _, [] => []
  | positionIndex, field :: rest =>
      if field.metadata.get? vgiArgKey = some (text "named") then
        fieldSpec field (.named field.name) :: fieldSpecs positionIndex rest
      else fieldSpec field (.index positionIndex) :: fieldSpecs (positionIndex + 1) rest

def schemaToArgumentSpecs (schema : Schema) : List ArgumentSpec :=
  fieldSpecs 0 schema.fields

/-! ## One spec -/

/-- An absent flag is false and an absent description is empty. -/
def settled (spec : ArgumentSpec) : ArgumentSpec where
  name := spec.name
  position := spec.position
  arrowType := spec.arrowType
  isTableInput := some (spec.isTableInput.getD false)
  isAnyType := some (spec.isAnyType.getD false)
  isVarargs := some (spec.isVarargs.getD false)
  isConst := some (spec.isConst.getD false)
  doc := some (spec.doc.getD [])
  defaultJson := spec.defaultJson
  choicesJson := spec.choicesJson
  rangeNotation := spec.rangeNotation
  pattern := spec.pattern

/-- A table input is not of any type as well. -/
def Exclusive (spec : ArgumentSpec) : Prop :=
  spec.isTableInput = some true → spec.isAnyType ≠ some true

private theorem presentEntries_get? (entries : List (Text × Option Text))
    (distinct : (entries.map Prod.fst).Nodup) (key : Text) (value : Option Text)
    (member : (key, value) ∈ entries) : (presentEntries entries).get? key = value := by
  have keys : ∀ entries : List (Text × Option Text),
      ((entries.filterMap fun entry => entry.2.map fun value => (entry.1, value)).map Prod.fst).Sublist
        (entries.map Prod.fst) := by
    intro entries
    induction entries with
    | nil => exact List.Sublist.slnil
    | cons entry rest ih =>
        obtain ⟨key, value⟩ := entry
        cases value with
        | none => exact ih.cons key
        | some value => exact ih.cons_cons key
  rw [presentEntries, OrderedMap.get?_ofEntries _ (distinct.sublist (keys entries))]
  clear keys
  induction entries with
  | nil => cases member
  | cons entry rest ih =>
      obtain ⟨first, held⟩ := entry
      obtain ⟨fresh, distinct⟩ := List.nodup_cons.mp distinct
      rcases List.mem_cons.mp member with here | later
      · cases here
        cases value with
        | some value => simp [lookupEntry]
        | none =>
            cases found : lookupEntry (rest.filterMap fun entry =>
                entry.2.map fun value => (entry.1, value)) key with
            | none => simpa using found
            | some value =>
                obtain ⟨entry, present, same⟩ :=
                  List.mem_filterMap.mp (mem_of_lookupEntry _ key value found)
                obtain ⟨_, _, same⟩ := Option.map_eq_some_iff.mp same
                cases same
                exact absurd (List.mem_map_of_mem present) fresh
      · have other : first ≠ key := by
          rintro rfl
          exact fresh (List.mem_map.mpr ⟨(first, value), later, rfl⟩)
        have below := ih distinct later
        cases held with
        | none => simpa using below
        | some held => simpa [lookupEntry, other] using below

private theorem metadataEntries_distinct (spec : ArgumentSpec) :
    ((metadataEntries spec).map Prod.fst).Nodup := by
  have keys : [vgiArgKey, vgiTypeKey, vgiVarargsKey, vgiConstKey, vgiDocKey, vgiDefaultKey,
    vgiChoicesKey, vgiRangeKey, vgiPatternKey].Nodup := by decide
  exact keys

private theorem metadata_get? (spec : ArgumentSpec) (key : Text) (value : Option Text)
    (member : (key, value) ∈ metadataEntries spec) :
    (specField spec).metadata.get? key = value :=
  presentEntries_get? (metadataEntries spec) (metadataEntries_distinct spec) key value member

private theorem named_iff (spec : ArgumentSpec) :
    (specField spec).metadata.get? vgiArgKey = some (text "named") ↔
      isNamed spec.position = true := by
  rw [metadata_get? spec vgiArgKey _ (.head _)]
  cases isNamed spec.position <;> simp

private theorem flag_read (flag : Option Bool) (word : Text) :
    decide ((if flag = some true then some word else none) = some word) = flag.getD false := by
  cases flag with
  | none => simp
  | some set => cases set <;> simp

private theorem filledText_getD (value : Option Text) :
    (filledText value).getD [] = value.getD [] := by
  unfold filledText
  split
  · rfl
  · rename_i other
    cases value with
    | none => rfl
    | some value =>
        cases value with
        | nil => rfl
        | cons unit rest => exact absurd rfl (other unit rest)

private theorem type_read (isTableInput isAnyType : Option Bool)
    (exclusive : isTableInput = some true → isAnyType ≠ some true) :
    decide ((if isTableInput = some true then some (text "table")
        else if isAnyType = some true then some (text "any") else none) = some (text "table")) =
      isTableInput.getD false ∧
    decide ((if isTableInput = some true then some (text "table")
        else if isAnyType = some true then some (text "any") else none) = some (text "any")) =
      isAnyType.getD false := by
  have different : text "any" ≠ text "table" := by decide
  by_cases table : isTableInput = some true
  · subst table
    have notAny := exclusive rfl
    cases isAnyType with
    | none => simp [Ne.symm different]
    | some set =>
        cases set with
        | true => exact absurd rfl notAny
        | false => simp [Ne.symm different]
  · have notTable : isTableInput.getD false = false := by
      cases isTableInput with
      | none => rfl
      | some set => simpa using table
    rw [if_neg table, notTable, flag_read]
    refine ⟨decide_eq_false ?_, rfl⟩
    split
    · exact fun same => different (Option.some.inj same)
    · exact nofun

theorem fieldSpec_specField (spec : ArgumentSpec) (exclusive : Exclusive spec) :
    fieldSpec (specField spec) spec.position = settled spec := by
  have type := metadata_get? spec vgiTypeKey _ (.tail _ (.head _))
  have varargs := metadata_get? spec vgiVarargsKey _ (.tail _ (.tail _ (.head _)))
  have const := metadata_get? spec vgiConstKey _ (.tail _ (.tail _ (.tail _ (.head _))))
  have doc := metadata_get? spec vgiDocKey (filledText spec.doc) (by simp [metadataEntries])
  have default := metadata_get? spec vgiDefaultKey spec.defaultJson (by simp [metadataEntries])
  have choices := metadata_get? spec vgiChoicesKey spec.choicesJson (by simp [metadataEntries])
  have range := metadata_get? spec vgiRangeKey spec.rangeNotation (by simp [metadataEntries])
  have pattern := metadata_get? spec vgiPatternKey spec.pattern (by simp [metadataEntries])
  obtain ⟨isTable, isAny⟩ := type_read spec.isTableInput spec.isAnyType exclusive
  simp only [fieldSpec, type, varargs, const, doc, default, choices, range, pattern, isTable, isAny,
    flag_read, filledText_getD, settled]
  rfl

/-! ## Lists of specs -/

/-- Positional specs are numbered in order, and a named one has its name for position. -/
def Numbered : Nat → List ArgumentSpec → Prop
  | _, [] => True
  | next, spec :: rest =>
      match spec.position with
      | .index index => index = next ∧ Numbered (next + 1) rest
      | .named key => key = spec.name ∧ Numbered next rest

private theorem numbered_index (next index : Nat) (spec : ArgumentSpec) (rest : List ArgumentSpec)
    (position : spec.position = .index index) :
    Numbered next (spec :: rest) ↔ index = next ∧ Numbered (next + 1) rest := by
  rw [Numbered, position]

private theorem numbered_named (next : Nat) (key : Text) (spec : ArgumentSpec)
    (rest : List ArgumentSpec) (position : spec.position = .named key) :
    Numbered next (spec :: rest) ↔ key = spec.name ∧ Numbered next rest := by
  rw [Numbered, position]

theorem specsOf_numbered (next : Nat) (declared : List Declared) :
    Numbered next (specsOf next declared) := by
  induction declared generalizing next with
  | nil => exact True.intro
  | cons first rest ih =>
      rw [specsOf]
      split
      · exact (numbered_named next first.name _ _ rfl).mpr ⟨rfl, ih next⟩
      · exact (numbered_index next next _ _ rfl).mpr ⟨rfl, ih (next + 1)⟩

theorem fieldSpecs_map (next : Nat) (specs : List ArgumentSpec) (numbered : Numbered next specs)
    (exclusive : ∀ spec ∈ specs, Exclusive spec) :
    fieldSpecs next (specs.map specField) = specs.map settled := by
  induction specs generalizing next with
  | nil => rfl
  | cons spec rest ih =>
      obtain ⟨here, later⟩ := List.forall_mem_cons.mp exclusive
      have read := fieldSpec_specField spec here
      have named := named_iff spec
      rw [List.map_cons, List.map_cons, fieldSpecs]
      cases position : spec.position with
      | index index =>
          obtain ⟨rfl, numbered⟩ := (numbered_index next index spec rest position).mp numbered
          rw [position] at read named
          rw [if_neg (fun isNamed => by cases named.mp isNamed), read, ih _ numbered later]
      | named key =>
          obtain ⟨rfl, numbered⟩ := (numbered_named next key spec rest position).mp numbered
          rw [position] at read named
          rw [if_pos (named.mpr rfl)]
          change fieldSpec (specField spec) (.named spec.name) :: _ = _
          rw [read, ih _ numbered later]

def positionalSpecs (specs : List ArgumentSpec) : List ArgumentSpec :=
  specs.filter fun spec => !isNamed spec.position

def namedSpecs (specs : List ArgumentSpec) : List ArgumentSpec :=
  specs.filter fun spec => isNamed spec.position

private theorem specs_index (index : Nat) (spec : ArgumentSpec) (rest : List ArgumentSpec)
    (position : spec.position = .index index) :
    positionalSpecs (spec :: rest) = spec :: positionalSpecs rest ∧
      namedSpecs (spec :: rest) = namedSpecs rest :=
  ⟨List.filter_cons_of_pos (by simp [position, isNamed]),
    List.filter_cons_of_neg (by simp [position, isNamed])⟩

private theorem specs_named (key : Text) (spec : ArgumentSpec) (rest : List ArgumentSpec)
    (position : spec.position = .named key) :
    positionalSpecs (spec :: rest) = positionalSpecs rest ∧
      namedSpecs (spec :: rest) = spec :: namedSpecs rest :=
  ⟨List.filter_cons_of_neg (by simp [position, isNamed]),
    List.filter_cons_of_pos (by simp [position, isNamed])⟩

private theorem positional_at_least (next : Nat) (specs : List ArgumentSpec)
    (numbered : Numbered next specs) :
    ∀ spec ∈ positionalSpecs specs, ∃ index, spec.position = .index index ∧ next ≤ index := by
  induction specs generalizing next with
  | nil => exact List.forall_mem_nil _
  | cons spec rest ih =>
      cases position : spec.position with
      | index index =>
          obtain ⟨rfl, numbered⟩ := (numbered_index next index spec rest position).mp numbered
          rw [(specs_index index spec rest position).1, List.forall_mem_cons]
          refine ⟨⟨index, position, Nat.le_refl index⟩, fun other member => ?_⟩
          obtain ⟨found, isFound, atLeast⟩ := ih (index + 1) numbered other member
          exact ⟨found, isFound, Nat.le_of_succ_le atLeast⟩
      | named key =>
          obtain ⟨_, numbered⟩ := (numbered_named next key spec rest position).mp numbered
          rw [(specs_named key spec rest position).1]
          exact ih next numbered

section

variable (localeLe : Text → Text → Bool)

private theorem orderedInsert_first (spec : ArgumentSpec) (rest : List ArgumentSpec)
    (first : ∀ other ∈ rest, specLe localeLe spec other) :
    rest.orderedInsert (specLe localeLe) spec = spec :: rest := by
  cases rest with
  | nil => rfl
  | cons other rest => exact List.orderedInsert_cons_of_le _ _ (first other List.mem_cons_self)

private theorem orderedInsert_behind (spec : ArgumentSpec) (before rest : List ArgumentSpec)
    (behind : ∀ other ∈ before, ¬ specLe localeLe spec other) :
    (before ++ rest).orderedInsert (specLe localeLe) spec =
      before ++ rest.orderedInsert (specLe localeLe) spec := by
  induction before with
  | nil => rfl
  | cons other before ih =>
      obtain ⟨here, later⟩ := List.forall_mem_cons.mp behind
      rw [List.cons_append, List.orderedInsert_cons, if_neg here, ih later, List.cons_append]

private theorem mem_namedSpecs (specs : List ArgumentSpec) (spec : ArgumentSpec)
    (member : spec ∈ (namedSpecs specs).insertionSort (specLe localeLe)) :
    spec ∈ specs ∧ isNamed spec.position = true := by
  rw [List.mem_insertionSort] at member
  exact List.mem_filter.mp member

/-- The positional specs in order, and the named ones sorted behind them. -/
theorem insertionSort_specs (next : Nat) (specs : List ArgumentSpec)
    (numbered : Numbered next specs) :
    specs.insertionSort (specLe localeLe) =
      positionalSpecs specs ++ (namedSpecs specs).insertionSort (specLe localeLe) := by
  induction specs generalizing next with
  | nil => rfl
  | cons spec rest ih =>
      rw [List.insertionSort_cons]
      cases position : spec.position with
      | index index =>
          obtain ⟨rfl, numbered⟩ := (numbered_index next index spec rest position).mp numbered
          obtain ⟨positional, named⟩ := specs_index index spec rest position
          rw [ih _ numbered, positional, named, List.cons_append]
          refine orderedInsert_first localeLe spec _ fun other member => ?_
          rw [specLe, position]
          rcases List.mem_append.mp member with isPositional | isNamed
          · obtain ⟨found, isFound, atLeast⟩ := positional_at_least _ rest numbered other isPositional
            rw [isFound]
            exact decide_eq_true (Nat.le_of_succ_le atLeast)
          · have named := (mem_namedSpecs localeLe rest other isNamed).2
            cases otherPosition : other.position with
            | index _ => simp [otherPosition, ArgumentSpecs.isNamed] at named
            | named key => rfl
      | named key =>
          obtain ⟨_, numbered⟩ := (numbered_named next key spec rest position).mp numbered
          obtain ⟨positional, named⟩ := specs_named key spec rest position
          rw [ih _ numbered, positional, named, List.insertionSort_cons]
          refine orderedInsert_behind localeLe spec _ _ fun other member before => ?_
          obtain ⟨found, isFound, _⟩ := positional_at_least _ rest numbered other member
          rw [specLe, position, isFound] at before
          cases before

private theorem numbered_of_keyed (next : Nat) (named : List ArgumentSpec)
    (keyed : ∀ spec ∈ named, spec.position = .named spec.name) : Numbered next named := by
  induction named with
  | nil => exact True.intro
  | cons spec rest ih =>
      obtain ⟨here, later⟩ := List.forall_mem_cons.mp keyed
      exact (numbered_named next spec.name spec rest here).mpr ⟨rfl, ih later⟩

private theorem numbered_append (next : Nat) (specs named : List ArgumentSpec)
    (numbered : Numbered next specs)
    (keyed : ∀ spec ∈ named, spec.position = .named spec.name) :
    Numbered next (positionalSpecs specs ++ named) := by
  induction specs generalizing next with
  | nil => exact numbered_of_keyed next named keyed
  | cons spec rest ih =>
      cases position : spec.position with
      | index index =>
          obtain ⟨rfl, numbered⟩ := (numbered_index next index spec rest position).mp numbered
          rw [(specs_index index spec rest position).1, List.cons_append]
          exact (numbered_index index index spec _ position).mpr ⟨rfl, ih _ numbered⟩
      | named key =>
          obtain ⟨_, numbered⟩ := (numbered_named next key spec rest position).mp numbered
          rw [(specs_named key spec rest position).1]
          exact ih _ numbered

private theorem keyed_of_numbered (next : Nat) (specs : List ArgumentSpec)
    (numbered : Numbered next specs) :
    ∀ spec ∈ specs, isNamed spec.position = true → spec.position = .named spec.name := by
  induction specs generalizing next with
  | nil => exact List.forall_mem_nil _
  | cons spec rest ih =>
      rw [List.forall_mem_cons]
      cases position : spec.position with
      | index index =>
          obtain ⟨_, numbered⟩ := (numbered_index next index spec rest position).mp numbered
          exact ⟨nofun, ih _ numbered⟩
      | named key =>
          obtain ⟨rfl, numbered⟩ := (numbered_named next key spec rest position).mp numbered
          exact ⟨fun _ => rfl, ih _ numbered⟩

/-- Specs read back from their schema are those encoded, an absent flag false and an absent
description empty: the positional ones in order, the named ones sorted behind them. -/
theorem specs_round_trip (specs : List ArgumentSpec) (numbered : Numbered 0 specs)
    (exclusive : ∀ spec ∈ specs, Exclusive spec) :
    schemaToArgumentSpecs (argumentSpecsToSchema localeLe specs) =
      (positionalSpecs specs ++ (namedSpecs specs).insertionSort (specLe localeLe)).map settled := by
  rw [schemaToArgumentSpecs, argumentSpecsToSchema, insertionSort_specs localeLe 0 specs numbered]
  refine fieldSpecs_map 0 _ (numbered_append 0 specs _ numbered fun spec member => ?_)
    fun spec member => ?_
  · obtain ⟨present, named⟩ := mem_namedSpecs localeLe specs spec member
    exact keyed_of_numbered 0 specs numbered spec present named
  · rcases List.mem_append.mp member with positional | named
    · exact exclusive spec (List.mem_filter.mp positional).1
    · exact exclusive spec (mem_namedSpecs localeLe specs spec named).1

end

/-! ## Every helper -/

/-- The lists of specs that the helpers build. -/
inductive Built (safeJson : Value → Text) : List ArgumentSpec → Prop where
  | tableInOut (config : ArgsConfig) : Built safeJson (defineTableInOutFunction safeJson config)
  | tableBuffering (config : ArgsConfig) :
      Built safeJson (defineTableBufferingFunction safeJson config)
  | rowTransform (config : ArgsConfig) (varargs : Option VarargsConfig) :
      Built safeJson (defineRowTransformFunction safeJson config varargs)
  | table (config : ArgsConfig) (varargs : List Text) :
      Built safeJson (defineTableFunction safeJson config varargs)
  | aggregate (config : ArgsConfig) (varargs constParams : List Text) :
      Built safeJson (defineAggregate safeJson config varargs constParams)
  | scalar (parameters : List ScalarParameter) :
      Built safeJson (defineScalarFunction safeJson parameters)
  | legacyScalar (params constParams : List (Text × DataType)) (argDocs : Text → Option Text) :
      Built safeJson (defineLegacyScalarFunction params constParams argDocs)
  | copyFrom (options : List (Text × DataType × Option Text)) :
      Built safeJson (defineCopyFromFunction options)
  | copyTo (config : ArgsConfig) (optionDocs : Text → Option Text) :
      Built safeJson (defineCopyToFunction safeJson config optionDocs)

private theorem specsOf_exclusive (next : Nat) (declared : List Declared)
    (each : ∀ one ∈ declared, one.isTableInput = some true → one.isAnyType ≠ some true) :
    ∀ spec ∈ specsOf next declared, Exclusive spec := by
  induction declared generalizing next with
  | nil => exact List.forall_mem_nil _
  | cons first rest ih =>
      obtain ⟨here, later⟩ := List.forall_mem_cons.mp each
      unfold specsOf
      split
      · exact List.forall_mem_cons.mpr ⟨here, ih next later⟩
      · exact List.forall_mem_cons.mpr ⟨here, ih (next + 1) later⟩

/-- Arguments that are no table input. -/
private def NoTable (declared : List Declared) : Prop :=
  ∀ one ∈ declared, one.isTableInput = none

private theorem noTable_map {α : Type} (arg : α → Declared) (plain : ∀ value, (arg value).isTableInput = none)
    (values : List α) : NoTable (values.map arg) := by
  intro one member
  obtain ⟨value, _, rfl⟩ := List.mem_map.mp member
  exact plain value

private theorem placed_of_noTable (declared : List Declared) (noTable : NoTable declared) :
    Numbered 0 (specsOf 0 declared) ∧ ∀ spec ∈ specsOf 0 declared, Exclusive spec := by
  refine ⟨specsOf_numbered 0 declared, specsOf_exclusive 0 declared fun one member table => ?_⟩
  rw [noTable one member] at table
  cases table

private theorem placed_of_tableInput (before behind : List Declared) (noTable : NoTable before)
    (noTable' : NoTable behind) :
    Numbered 0 (specsOf 0 (before ++ tableInput :: behind)) ∧
      ∀ spec ∈ specsOf 0 (before ++ tableInput :: behind), Exclusive spec := by
  refine ⟨specsOf_numbered 0 _, specsOf_exclusive 0 _ fun one member table => ?_⟩
  rcases List.mem_append.mp member with early | rest
  · rw [noTable one early] at table
    cases table
  · rcases List.mem_cons.mp rest with rfl | late
    · exact nofun
    · rw [noTable' one late] at table
      cases table

private theorem withOptionDoc_keeps (optionDocs : Text → Option Text) (spec : ArgumentSpec) :
    (withOptionDoc optionDocs spec).name = spec.name ∧
      (withOptionDoc optionDocs spec).position = spec.position ∧
      (Exclusive spec → Exclusive (withOptionDoc optionDocs spec)) := by
  unfold withOptionDoc
  split
  · exact ⟨rfl, rfl, id⟩
  · split
    · exact ⟨rfl, rfl, id⟩
    · exact ⟨rfl, rfl, id⟩

private theorem placed_map (change : ArgumentSpec → ArgumentSpec)
    (keeps : ∀ spec, (change spec).name = spec.name ∧ (change spec).position = spec.position ∧
      (Exclusive spec → Exclusive (change spec))) (next : Nat) (specs : List ArgumentSpec)
    (placed : Numbered next specs ∧ ∀ spec ∈ specs, Exclusive spec) :
    Numbered next (specs.map change) ∧ ∀ spec ∈ specs.map change, Exclusive spec := by
  induction specs generalizing next with
  | nil => exact placed
  | cons spec rest ih =>
      obtain ⟨numbered, exclusive⟩ := placed
      obtain ⟨here, later⟩ := List.forall_mem_cons.mp exclusive
      obtain ⟨name, position, kept⟩ := keeps spec
      rw [List.map_cons, List.forall_mem_cons]
      cases isPosition : spec.position with
      | index index =>
          obtain ⟨rfl, numbered⟩ := (numbered_index next index spec rest isPosition).mp numbered
          obtain ⟨restNumbered, restExclusive⟩ := ih _ ⟨numbered, later⟩
          exact ⟨(numbered_index index index _ _ (position.trans isPosition)).mpr
            ⟨rfl, restNumbered⟩, kept here, restExclusive⟩
      | named key =>
          obtain ⟨isName, numbered⟩ := (numbered_named next key spec rest isPosition).mp numbered
          obtain ⟨restNumbered, restExclusive⟩ := ih _ ⟨numbered, later⟩
          exact ⟨(numbered_named next key _ _ (position.trans isPosition)).mpr
            ⟨isName.trans name.symm, restNumbered⟩, kept here, restExclusive⟩

private theorem noTable_append (first second : List Declared) (noTable : NoTable first)
    (noTable' : NoTable second) : NoTable (first ++ second) :=
  List.forall_mem_append.mpr ⟨noTable, noTable'⟩

private theorem tableBuffering_placed (safeJson : Value → Text) (config : ArgsConfig) :
    Numbered 0 (defineTableBufferingFunction safeJson config) ∧
      ∀ spec ∈ defineTableBufferingFunction safeJson config, Exclusive spec := by
  rw [defineTableBufferingFunction]
  exact placed_of_tableInput _ _ (noTable_map _ (fun _ => rfl) _) (noTable_map _ (fun _ => rfl) _)

theorem built_placed (safeJson : Value → Text) (specs : List ArgumentSpec)
    (built : Built safeJson specs) : Numbered 0 specs ∧ ∀ spec ∈ specs, Exclusive spec := by
  cases built with
  | tableInOut config =>
      rw [defineTableInOutFunction]
      exact placed_of_tableInput _ _ (noTable_map _ (fun _ => rfl) _) (noTable_map _ (fun _ => rfl) _)
  | tableBuffering config => exact tableBuffering_placed safeJson config
  | rowTransform config varargs =>
      exact placed_of_noTable _ (noTable_append _ _ (noTable_map _ (fun _ => rfl) _)
        (noTable_append _ _ (noTable_map _ (fun _ => rfl) _) (noTable_map _ (fun _ => rfl) _)))
  | table config varargs => exact placed_of_noTable _ (noTable_map _ (fun _ => rfl) _)
  | aggregate config varargs constParams =>
      exact placed_of_noTable _ (noTable_map _ (fun _ => rfl) _)
  | scalar parameters => exact placed_of_noTable _ (noTable_map _ (fun _ => rfl) _)
  | legacyScalar params constParams argDocs =>
      exact placed_of_noTable _ (noTable_append _ _ (noTable_map _ (fun _ => rfl) _)
        (noTable_map _ (fun _ => rfl) _))
  | copyFrom options => exact placed_of_noTable _ (noTable_map _ (fun _ => rfl) _)
  | copyTo config optionDocs =>
      rw [defineCopyToFunction]
      exact placed_map _ (withOptionDoc_keeps optionDocs) 0 _ (tableBuffering_placed safeJson config)

/-- What any helper builds is read back from its schema, the positional specs in order, the named
ones sorted behind them, an absent flag false and an absent description empty. -/
theorem built_specs_round_trip (safeJson : Value → Text) (localeLe : Text → Text → Bool)
    (specs : List ArgumentSpec) (built : Built safeJson specs) :
    schemaToArgumentSpecs (argumentSpecsToSchema localeLe specs) =
      (positionalSpecs specs ++ (namedSpecs specs).insertionSort (specLe localeLe)).map settled := by
  obtain ⟨numbered, exclusive⟩ := built_placed safeJson specs built
  exact specs_round_trip localeLe specs numbered exclusive

/-- Two options, the later name first. -/
def sampleOptions : List (Text × DataType × Option Text) :=
  [(text "b", .utf8, some (text "second")), (text "a", .int 64 true, none)]

/-- The order of ASCII lower-case names in any locale. -/
def asciiLe (left right : Text) : Bool :=
  decide (left.map UInt16.toNat ≤ right.map UInt16.toNat)

theorem built_specs_round_trip_sample :
    schemaToArgumentSpecs (argumentSpecsToSchema asciiLe (defineCopyFromFunction sampleOptions)) =
      (positionalSpecs (defineCopyFromFunction sampleOptions) ++
        (namedSpecs (defineCopyFromFunction sampleOptions)).insertionSort (specLe asciiLe)).map
          settled :=
  built_specs_round_trip (fun _ => []) asciiLe _ (.copyFrom sampleOptions)

/-- The specs come back in another order, and a flag that was absent comes back false. -/
theorem built_specs_reordered :
    (schemaToArgumentSpecs (argumentSpecsToSchema asciiLe
        (defineCopyFromFunction sampleOptions))).map ArgumentSpec.name = [text "a", text "b"] ∧
      (defineCopyFromFunction sampleOptions).map ArgumentSpec.name = [text "b", text "a"] ∧
      schemaToArgumentSpecs (argumentSpecsToSchema asciiLe (defineCopyFromFunction sampleOptions)) ≠
        defineCopyFromFunction sampleOptions ∧
      (schemaToArgumentSpecs (argumentSpecsToSchema asciiLe
        (defineCopyFromFunction sampleOptions))).map ArgumentSpec.isConst =
          [some false, some false] ∧
      (defineCopyFromFunction sampleOptions).map ArgumentSpec.isConst = [none, none] := by
  have names : (schemaToArgumentSpecs (argumentSpecsToSchema asciiLe
      (defineCopyFromFunction sampleOptions))).map ArgumentSpec.name = [text "a", text "b"] := by
    decide +kernel
  have before : (defineCopyFromFunction sampleOptions).map ArgumentSpec.name =
      [text "b", text "a"] := by
    decide +kernel
  refine ⟨names, before, fun same => ?_, by decide +kernel, by decide +kernel⟩
  rw [same, before] at names
  revert names
  decide

end VgiWorker.ArgumentSpecs
