import VgiWorker.Functions.Registry

/-!
# What an overload accepts

The arguments that a function takes, by their number and types, and the scores of
the types.
-/

set_option autoImplicit false

namespace VgiWorker.Functions.Registry

open VgiWorker.Js VgiWorker.Arrow VgiWorker.Protocol

/-- The parameter that an argument meets. -/
def specAt (specs : List ArgumentSpec) (index : Nat) : Option ArgumentSpec :=
  specs[index]?.or (varArgsSpec specs)

def Takes (spec : ArgumentSpec) (actual : DataType) : Prop :=
  spec.untyped = true ∨ typesCompatible actual spec.arrowType = true

def TakesExactly (spec : ArgumentSpec) (actual : DataType) : Prop :=
  spec.untyped = false ∧ typesIdentical actual spec.arrowType = true

/-- Every known type meets a parameter that takes it. -/
def TakesTypes (takes : ArgumentSpec → DataType → Prop) (specs : List ArgumentSpec)
    (actualTypes : List (Option DataType)) : Prop :=
  ∀ (index : Nat) (actual : DataType), actualTypes[index]? = some (some actual) →
    ∃ spec, specAt specs index = some spec ∧ takes spec actual

def fieldTypes (schema : Schema) : List (Option DataType) :=
  schema.fields.map fun field => some field.type

/-- The number and the types of the arguments fit. Of a scalar function the arguments meet the
constant parameters and the input columns the others; of a blended one the input columns meet the
positional parameters. -/
def Accepts (takes : ArgumentSpec → DataType → Prop) (args : Arguments)
    (inputSchema : Option Schema) (isScalar : Bool) (func : VgiFunction) : Prop :=
  countMatches args inputSchema isScalar func = true ∧
  if isScalar then
    TakesTypes takes (constSpecs func) (argumentTypes args) ∧
    ∀ schema, inputSchema = some schema →
      takesCount (columnSpecs func) schema.fields.length = true ∧
      TakesTypes takes (sortedSpecs (columnSpecs func)) (fieldTypes schema)
  else if func.inputFromArgs then
    ∀ schema, inputSchema = some schema →
      TakesTypes takes (sortedSpecs (positionalSpecs func)) (fieldTypes schema)
  else TakesTypes takes (sortedSpecs (positionalSpecs func)) (argumentTypes args)

/-! ## Scores of slots -/

/-- The slots whose type is known. -/
def knownTypes (actualTypes : List (Option DataType)) : Nat :=
  actualTypes.countP Option.isSome

private theorem scoreType_some (spec : ArgumentSpec) (actual : DataType) (score : Nat)
    (scored : scoreType spec (some actual) = some score) :
    Takes spec actual ∧ score ≤ exactMatchScore ∧
      (score = exactMatchScore ↔ TakesExactly spec actual) := by
  rw [scoreType] at scored
  split at scored
  · rename_i untyped
    cases scored
    exact ⟨.inl untyped, Nat.zero_le _, nofun, fun exact => by simp [exact.1] at untyped⟩
  · rename_i typed
    have typed := Bool.eq_false_of_not_eq_true typed
    split at scored
    · rename_i identical
      cases scored
      exact ⟨.inr (by simp [typesCompatible, identical]), Nat.le_refl _,
        fun _ => ⟨typed, identical⟩, fun _ => rfl⟩
    · rename_i different
      split at scored
      · rename_i compatible
        cases scored
        exact ⟨.inr compatible, by decide, nofun, fun exact => absurd exact.2 different⟩
      · cases scored

private theorem scoreType_isSome (spec : ArgumentSpec) (actual : DataType)
    (takes : Takes spec actual) : ∃ score, scoreType spec (some actual) = some score := by
  rw [scoreType]
  split
  · exact ⟨0, rfl⟩
  · rename_i typed
    rcases takes with untyped | compatible
    · exact absurd untyped typed
    · split
      · exact ⟨_, rfl⟩
      · exact ⟨_, rfl⟩

private theorem scoreType_unknown (spec : ArgumentSpec) : scoreType spec none = some 0 := by
  rw [scoreType]
  split <;> rfl

/-- Slots score when every known type is taken, and the most when all are taken exactly. -/
private theorem scoreSlots_some (slots : List (ArgumentSpec × Option DataType)) (score : Nat)
    (scored : scoreSlots slots = some score) :
    (∀ slot ∈ slots, ∀ actual, slot.2 = some actual → Takes slot.1 actual) ∧
      score ≤ exactMatchScore * knownTypes (slots.map Prod.snd) ∧
      (score = exactMatchScore * knownTypes (slots.map Prod.snd) ↔
        ∀ slot ∈ slots, ∀ actual, slot.2 = some actual → TakesExactly slot.1 actual) := by
  induction slots generalizing score with
  | nil =>
      cases scored
      exact ⟨nofun, Nat.le_refl _, fun _ => nofun, fun _ => rfl⟩
  | cons slot rest ih =>
      obtain ⟨spec, actual⟩ := slot
      rw [scoreSlots] at scored
      obtain ⟨first, here, scored⟩ := Option.bind_eq_some_iff.mp scored
      obtain ⟨others, later, scored⟩ := Option.bind_eq_some_iff.mp scored
      cases scored
      obtain ⟨taken, atMost, most⟩ := ih others later
      simp only [List.forall_mem_cons, List.map_cons, knownTypes, List.countP_cons] at *
      cases actual with
      | none =>
          cases (scoreType_unknown spec).symm.trans here
          refine ⟨⟨nofun, taken⟩, by simpa using atMost, ?_⟩
          simp only [Option.isSome_none, Bool.false_eq_true, if_false, Nat.zero_add, Nat.add_zero]
          exact ⟨fun same => ⟨nofun, most.mp same⟩, fun exact => most.mpr exact.2⟩
      | some actual =>
          obtain ⟨takes, bound, isMost⟩ := scoreType_some spec actual first here
          refine ⟨⟨fun _ same => by cases same; exact takes, taken⟩, ?_, ?_⟩
          · simp only [Option.isSome_some, if_true, Nat.mul_add, Nat.mul_one]
            omega
          · simp only [Option.isSome_some, if_true, Nat.mul_add, Nat.mul_one]
            constructor
            · intro same
              refine ⟨fun _ isActual => ?_, most.mp (by omega)⟩
              cases isActual
              exact isMost.mp (by omega)
            · rintro ⟨exact, others⟩
              have := isMost.mpr (exact actual rfl)
              have := most.mpr others
              omega

private theorem scoreSlots_isSome (slots : List (ArgumentSpec × Option DataType))
    (taken : ∀ slot ∈ slots, ∀ actual, slot.2 = some actual → Takes slot.1 actual) :
    ∃ score, scoreSlots slots = some score := by
  induction slots with
  | nil => exact ⟨0, rfl⟩
  | cons slot rest ih =>
      obtain ⟨spec, actual⟩ := slot
      obtain ⟨others, later⟩ := ih fun other member => taken other (List.mem_cons_of_mem _ member)
      have first : ∃ score, scoreType spec actual = some score := by
        cases actual with
        | none => exact ⟨0, scoreType_unknown spec⟩
        | some actual =>
            exact scoreType_isSome spec actual (taken _ List.mem_cons_self actual rfl)
      obtain ⟨score, here⟩ := first
      exact ⟨score + others, by simp [scoreSlots, here, later]⟩

/-! ## Slots of a call -/

private theorem getElem?_slotsOf (specs : List ArgumentSpec)
    (actualTypes : List (Option DataType)) (index : Nat) :
    (slotsOf specs actualTypes)[index]? =
      actualTypes[index]?.bind fun actual =>
        (specAt specs index).map fun spec => (spec, actual) := by
  unfold slotsOf specAt
  generalize varArgsSpec specs = tail
  induction specs generalizing actualTypes index with
  | nil =>
      cases tail with
      | none => cases actualTypes[index]? <;> simp
      | some spec => cases here : actualTypes[index]? <;> simp [here]
  | cons spec rest ih =>
      cases actualTypes with
      | nil => cases tail <;> simp
      | cons actual others =>
          cases index with
          | zero => simp
          | succ index => simpa using ih others index

private theorem specAt_isSome (specs : List ArgumentSpec) (count index : Nat)
    (accepted : takesCount specs count = true) (inside : index < count) :
    ∃ spec, specAt specs index = some spec := by
  rw [specAt]
  cases here : specs[index]? with
  | some spec => exact ⟨spec, rfl⟩
  | none =>
      have beyond := List.getElem?_eq_none_iff.mp here
      rw [takesCount] at accepted
      split at accepted
      · rename_i variadic
        obtain ⟨spec, member, isVarargs⟩ := List.any_eq_true.mp variadic
        cases found : varArgsSpec specs with
        | none =>
            exact absurd isVarargs
              (List.find?_eq_none.mp found spec (List.mem_reverse.mpr member))
        | some spec => exact ⟨spec, rfl⟩
      · rw [decide_eq_true_eq] at accepted
        omega

private theorem slotsOf_types (specs : List ArgumentSpec) (actualTypes : List (Option DataType))
    (accepted : takesCount specs actualTypes.length = true) :
    (slotsOf specs actualTypes).map Prod.snd = actualTypes := by
  refine List.ext_getElem? fun index => ?_
  rw [List.getElem?_map, getElem?_slotsOf]
  cases here : actualTypes[index]? with
  | none => rfl
  | some actual =>
      obtain ⟨spec, isSpec⟩ := specAt_isSome specs _ index accepted
        (List.getElem?_eq_some_iff.mp here).1
      simp [isSpec]

/-- Every slot's type is taken when every known type is. -/
private theorem slots_take_iff (takes : ArgumentSpec → DataType → Prop)
    (specs : List ArgumentSpec) (actualTypes : List (Option DataType))
    (accepted : takesCount specs actualTypes.length = true) :
    (∀ slot ∈ slotsOf specs actualTypes, ∀ actual, slot.2 = some actual → takes slot.1 actual) ↔
      TakesTypes takes specs actualTypes := by
  constructor
  · intro each index actual here
    obtain ⟨spec, isSpec⟩ := specAt_isSome specs _ index accepted
      (List.getElem?_eq_some_iff.mp here).1
    refine ⟨spec, isSpec, each (spec, some actual) (List.mem_of_getElem? (i := index) ?_) actual rfl⟩
    rw [getElem?_slotsOf, here, Option.bind_some, isSpec, Option.map_some]
  · intro taken slot member actual known
    obtain ⟨index, here⟩ := List.mem_iff_getElem?.mp member
    rw [getElem?_slotsOf] at here
    obtain ⟨found, isFound, here⟩ := Option.bind_eq_some_iff.mp here
    obtain ⟨spec, isSpec, same⟩ := Option.map_eq_some_iff.mp here
    cases same
    obtain rfl : found = some actual := known
    obtain ⟨other, isOther, takesIt⟩ := taken index actual isFound
    cases isSpec.symm.trans isOther
    exact takesIt

/-- The score of parameter types against the types of as many arguments. -/
theorem scoreTypes_isSome_iff (specs : List ArgumentSpec) (actualTypes : List (Option DataType))
    (accepted : takesCount specs actualTypes.length = true) :
    (∃ score, scoreTypes specs actualTypes = some score) ↔ TakesTypes Takes specs actualTypes := by
  rw [← slots_take_iff Takes specs actualTypes accepted]
  constructor
  · rintro ⟨score, scored⟩
    exact (scoreSlots_some _ score scored).1
  · exact scoreSlots_isSome _

theorem scoreTypes_most_iff (specs : List ArgumentSpec) (actualTypes : List (Option DataType))
    (accepted : takesCount specs actualTypes.length = true) (score : Nat)
    (scored : scoreTypes specs actualTypes = some score) :
    score ≤ exactMatchScore * knownTypes actualTypes ∧
      (score = exactMatchScore * knownTypes actualTypes ↔
        TakesTypes TakesExactly specs actualTypes) := by
  obtain ⟨_, atMost, most⟩ := scoreSlots_some _ score scored
  rw [slotsOf_types specs actualTypes accepted] at atMost most
  exact ⟨atMost, most.trans (slots_take_iff TakesExactly specs actualTypes accepted)⟩

/-! ## Table functions -/

private theorem takesCount_sorted (specs : List ArgumentSpec) (count : Nat) :
    takesCount (sortedSpecs specs) count = takesCount specs count := by
  have sorted : (sortedSpecs specs).Perm specs := List.perm_insertionSort _ specs
  have variadic : (sortedSpecs specs).any ArgumentSpec.isVarargs =
      specs.any ArgumentSpec.isVarargs := sorted.any_eq
  rw [takesCount, takesCount, variadic, sorted.length_eq,
    (sorted.filter fun spec => !spec.isVarargs).length_eq]

theorem typeScore_table (args : Arguments) (inputSchema : Option Schema) (func : VgiFunction)
    (plain : func.inputFromArgs = false) :
    typeScore args inputSchema false func =
      scoreTypes (sortedSpecs (positionalSpecs func)) (argumentTypes args) := by
  simp [typeScore, plain]

private theorem table_counts (args : Arguments) (inputSchema : Option Schema) (func : VgiFunction)
    (plain : func.inputFromArgs = false)
    (counts : countMatches args inputSchema false func = true) :
    takesCount (sortedSpecs (positionalSpecs func)) (argumentTypes args).length = true := by
  rw [takesCount_sorted, argumentTypes, List.length_map, List.length_range]
  simpa [countMatches, plain] using counts

/-- In a table call the types of a function of the right number of arguments match when it accepts
the call. -/
theorem accepts_table_iff (args : Arguments) (inputSchema : Option Schema) (func : VgiFunction)
    (plain : func.inputFromArgs = false)
    (counts : countMatches args inputSchema false func = true) :
    Accepts Takes args inputSchema false func ↔
      ∃ score, typeScore args inputSchema false func = some score := by
  rw [typeScore_table args inputSchema func plain,
    scoreTypes_isSome_iff _ _ (table_counts args inputSchema func plain counts)]
  simp [Accepts, counts, plain]

/-- The functions that accept a table call with exact types are those of the highest score. -/
theorem accepts_exactly_table_iff (args : Arguments) (inputSchema : Option Schema)
    (func : VgiFunction) (plain : func.inputFromArgs = false)
    (counts : countMatches args inputSchema false func = true) (score : Nat)
    (scored : typeScore args inputSchema false func = some score) :
    score ≤ exactMatchScore * knownTypes (argumentTypes args) ∧
      (Accepts TakesExactly args inputSchema false func ↔
        score = exactMatchScore * knownTypes (argumentTypes args)) := by
  rw [typeScore_table args inputSchema func plain] at scored
  obtain ⟨atMost, most⟩ := scoreTypes_most_iff _ _
    (table_counts args inputSchema func plain counts) score scored
  refine ⟨atMost, ?_⟩
  rw [most]
  simp [Accepts, counts, plain]

theorem accepts_of_exactly (args : Arguments) (inputSchema : Option Schema) (isScalar : Bool)
    (func : VgiFunction) (accepts : Accepts TakesExactly args inputSchema isScalar func) :
    Accepts Takes args inputSchema isScalar func := by
  have wider (specs : List ArgumentSpec) (actualTypes : List (Option DataType))
      (taken : TakesTypes TakesExactly specs actualTypes) : TakesTypes Takes specs actualTypes := by
    intro index actual here
    obtain ⟨spec, isSpec, _, identical⟩ := taken index actual here
    exact ⟨spec, isSpec, .inr (by simp [typesCompatible, identical])⟩
  obtain ⟨counts, types⟩ := accepts
  refine ⟨counts, ?_⟩
  split at types
  · rename_i scalar
    rw [if_pos scalar]
    exact ⟨wider _ _ types.1, fun schema isSchema =>
      ⟨(types.2 schema isSchema).1, wider _ _ (types.2 schema isSchema).2⟩⟩
  · rename_i table
    rw [if_neg table]
    split at types
    · rename_i blended
      rw [if_pos blended]
      exact fun schema isSchema => wider _ _ (types schema isSchema)
    · rename_i plain
      rw [if_neg plain]
      exact wider _ _ types

end VgiWorker.Functions.Registry
