import VgiWorker.FilterPushdown.HistoryProperties
import VgiWorker.Js.OrderedMapRuns

/-!
# A rule for what the parser reads

A property of expressions that every node keeps, given what the parser checks at
the node, holds of every expression the parser reads.
-/

set_option autoImplicit false

namespace VgiWorker.FilterPushdown

open VgiWorker.Js VgiWorker.Arrow FilterParser

/-- Whatever the step reads satisfies `holds`. -/
def Yields {α : Type} (holds : α → Prop) (step : Reading α) : Prop :=
  ∀ nodes result after, step nodes = .ok (result, after) → holds result

theorem yields_bind {α β : Type} (first : α → Prop) (holds : β → Prop) (step : Reading α)
    (next : α → Reading β) (stepYields : Yields first step)
    (nextYields : ∀ value, first value → Yields holds (next value)) :
    Yields holds (step >>= next) := by
  intro nodes result after success
  obtain ⟨value, middle, read, success⟩ := reading_bind_ok _ _ _ _ _ success
  exact nextYields value (stepYields nodes value middle read) middle result after success

theorem yields_any {α : Type} (step : Reading α) : Yields (fun _ => True) step :=
  fun _ _ _ _ => trivial

theorem yields_skip {α β : Type} (holds : β → Prop) (step : Reading α) (next : α → Reading β)
    (nextYields : ∀ value, Yields holds (next value)) : Yields holds (step >>= next) :=
  yields_bind (fun _ => True) holds step next (yields_any step) fun value _ => nextYields value

theorem yields_pure {α : Type} (holds : α → Prop) (value : α) (held : holds value) :
    Yields holds (pure value : Reading α) := by
  intro nodes result after success
  cases success
  exact held

theorem yields_lift {α : Type} (holds : α → Prop) (step : Except Fault α)
    (each : ∀ value, step = .ok value → holds value) : Yields holds (liftM step : Reading α) :=
  fun nodes result after success => each result (reading_lift_ok step nodes after result success).1

theorem yields_throw {α : Type} (holds : α → Prop) (message : Text) :
    Yields holds (liftM (throwV2 message : Except Fault α) : Reading α) :=
  yields_lift holds _ fun _ thrown => nomatch thrown

theorem yields_ite {α : Type} (holds : α → Prop) (condition : Prop) [Decidable condition]
    (first second : Reading α) (ifTrue : Yields holds first) (ifFalse : Yields holds second) :
    Yields holds (if condition then first else second) := by
  split
  · exact ifTrue
  · exact ifFalse

theorem yields_mapM {α β : Type} (holds : β → Prop) (step : α → Reading β) (values : List α)
    (each : ∀ value, Yields holds (step value)) :
    Yields (fun results => ∀ result ∈ results, holds result) (values.mapM step) := by
  induction values with
  | nil => exact yields_pure _ [] fun _ member => absurd member List.not_mem_nil
  | cons value rest ih =>
      rw [List.mapM_cons]
      refine yields_bind holds _ _ _ (each value) fun first firstHolds => ?_
      refine yields_bind _ _ _ _ ih fun others othersHold => ?_
      refine yields_pure _ _ fun result member => ?_
      cases member with
      | head => exact firstHolds
      | tail _ member => exact othersHold result member

namespace FilterParser

private theorem structField_ok (object : Json) (parent : FilterExpression) (index : Nat) (field : Field)
    (success : structField object parent = .ok (index, field)) :
    ∃ children, expressionType parent = some (.struct children) ∧
      children[index]? = some field := by
  unfold structField at success
  split at success
  · rename_i children isStruct
    obtain ⟨fieldIndex, _, success⟩ := except_bind_ok _ _ _ success
    obtain ⟨fieldName, _, success⟩ := except_bind_ok _ _ _ success
    split at success
    · rename_i found
      split at success
      · cases success
      · cases success
        exact ⟨children, isStruct, found⟩
    · cases success
  · cases success

variable (batch : Batch) (options : DeserializeFilterOptions) (holds : FilterExpression → Prop)

/-- What each node keeps, given the parser's checks there. -/
structure NodeRules : Prop where
  columnRef : ∀ index field, options.outputSchema.fields[index]? = some field →
    holds (.columnRef index field.name (some field.type))
  literal : ∀ rawRef read, payload batch (text "value") rawRef = .ok read →
    holds (.literal read.ref read.field read.value)
  fieldRef : ∀ expression index children field, holds expression →
    expressionType expression = some (.struct children) → children[index]? = some field →
    holds (.fieldRef expression index field.name field.type)
  comparison : ∀ op left right, holds left → holds right → holds (.comparison op left right)
  and : ∀ children, (∀ child ∈ children, holds child ∧ isBooleanExpression child = true) →
    holds (.and children)
  or : ∀ children, (∀ child ∈ children, holds child ∧ isBooleanExpression child = true) →
    holds (.or children)
  not : ∀ expression, holds expression → isBooleanExpression expression = true →
    holds (.not expression)
  isNull : ∀ expression negated, holds expression → holds (.isNull expression negated)
  inSet : ∀ expression setObject set negated, holds expression →
    filterSet batch options setObject = .ok set → holds (.inSet expression set negated)
  cast : ∀ expression typeRef field, holds expression → holds (.cast expression typeRef field)
  arithmetic : ∀ op left right, holds left → holds right → holds (.arithmetic op left right)
  negate : ∀ expression, holds expression → holds (.negate expression)
  call : ∀ function args options, (∀ arg ∈ args, holds arg) → holds (.call function args options)
  runtimeFilter : ∀ algorithm input artifactRef field artifact nullHandling supported,
    holds input →
    holds (.runtimeFilter algorithm input artifactRef field artifact nullHandling supported)

variable (rules : NodeRules batch options holds)

include rules

private theorem columnRef_holds (object : Json) (expression : FilterExpression)
    (success : columnRef options object = .ok expression) : holds expression := by
  unfold columnRef at success
  obtain ⟨_, _, success⟩ := except_bind_ok _ _ _ success
  obtain ⟨index, _, success⟩ := except_bind_ok _ _ _ success
  obtain ⟨name, _, success⟩ := except_bind_ok _ _ _ success
  split at success
  · rename_i field found
    split at success
    · cases success
    · rename_i sameName
      obtain ⟨_, _, success⟩ := except_bind_ok _ _ _ success
      cases success
      rw [← not_not.mp sameName]
      exact rules.columnRef index field found
  · cases success

private theorem literal_holds (object : Json) (expression : FilterExpression)
    (success : literal batch object = .ok expression) : holds expression := by
  obtain ⟨_, _, success⟩ := except_bind_ok _ _ _ success
  obtain ⟨read, isRead, success⟩ := except_bind_ok _ _ _ success
  obtain ⟨_, _, success⟩ := except_bind_ok _ _ _ success
  cases success
  exact rules.literal _ read isRead

private theorem callOptions_holds (object : Json) (function : FilterFunction)
    (args : List FilterExpression) (each : ∀ arg ∈ args, holds arg) (expression : FilterExpression)
    (success : callOptions object function args = .ok expression) : holds expression := by
  unfold callOptions at success
  dsimp only at success
  cases function with
  | standard function =>
      obtain ⟨_, _, success⟩ := except_bind_ok _ _ _ success
      cases given : property object "options" with
      | none =>
          simp only [given] at success
          cases success
          exact rules.call _ _ _ each
      | some value =>
          simp only [given] at success
          obtain ⟨_, _, success⟩ := except_bind_ok _ _ _ success
          split at success
          · cases success
          · cases success
          · cases success
            exact rules.call _ _ _ each
  | extension identity =>
      cases given : property object "options" with
      | none =>
          simp only [given] at success
          cases success
          exact rules.call _ _ _ each
      | some value =>
          simp only [given] at success
          obtain ⟨_, _, success⟩ := except_bind_ok _ _ _ success
          split at success
          · cases success
          · split at success
            · cases success
            · cases success
              exact rules.call _ _ _ each
          · cases success
            exact rules.call _ _ _ each

section Nodes

variable (child : Option Json → Reading FilterExpression)
  (each : ∀ value, Yields holds (child value)) (object : Json)

include each

private theorem fieldRef_yields : Yields holds (fieldRef child object) := by
  refine yields_skip _ _ _ fun _ => ?_
  refine yields_bind _ _ _ _ (each _) fun expression held => ?_
  refine yields_bind (fun found => structField object expression = .ok found) _ _ _
    (yields_lift _ _ fun _ success => success) fun found isFound => yields_pure _ _ ?_
  obtain ⟨children, isStruct, isField⟩ := structField_ok object expression found.1 found.2 isFound
  exact rules.fieldRef expression found.1 children found.2 held isStruct isField

private theorem comparison_yields : Yields holds (comparison child object) := by
  refine yields_skip _ _ _ fun _ => yields_skip _ _ _ fun op => ?_
  refine yields_bind _ _ _ _ (each _) fun left leftHeld => ?_
  refine yields_bind _ _ _ _ (each _) fun right rightHeld => ?_
  exact yields_pure _ _ (rules.comparison op left right leftHeld rightHeld)

private theorem arithmetic_yields : Yields holds (arithmetic child object) := by
  refine yields_skip _ _ _ fun _ => yields_skip _ _ _ fun op => ?_
  refine yields_bind _ _ _ _ (each _) fun left leftHeld => ?_
  refine yields_bind _ _ _ _ (each _) fun right rightHeld => ?_
  exact yields_pure _ _ (rules.arithmetic op left right leftHeld rightHeld)

omit rules in
private theorem junction_yields (node : Text) (build : List FilterExpression → FilterExpression)
    (built : ∀ children, (∀ child ∈ children, holds child ∧ isBooleanExpression child = true) →
      holds (build children)) :
    Yields holds (junction child object node build) := by
  refine yields_skip _ _ _ fun _ => yields_skip _ _ _ fun elements => ?_
  refine yields_bind _ _ _ _ (yields_mapM _ _ _ fun _ => each _) fun children held => ?_
  split
  · exact yields_throw _ _
  · rename_i boolean
    refine yields_pure _ _ (built children fun member isMember => ⟨held member isMember, ?_⟩)
    cases isBoolean : isBooleanExpression member with
    | true => rfl
    | false =>
        refine absurd ?_ boolean
        rw [Bool.or_eq_true, List.any_eq_true]
        exact .inr ⟨member, isMember, by rw [isBoolean]; rfl⟩

private theorem negation_yields : Yields holds (negation child object) := by
  refine yields_skip _ _ _ fun _ => ?_
  refine yields_bind _ _ _ _ (each _) fun expression held => ?_
  split
  · exact yields_throw _ _
  · rename_i boolean
    exact yields_pure _ _ (rules.not expression held (by simpa using boolean))

private theorem isNull_yields : Yields holds (isNull child object) := by
  refine yields_skip _ _ _ fun _ => ?_
  refine yields_bind _ _ _ _ (each _) fun expression held => ?_
  exact yields_skip _ _ _ fun negated => yields_pure _ _ (rules.isNull expression negated held)

private theorem inSet_yields : Yields holds (inSet batch options child object) := by
  refine yields_skip _ _ _ fun _ => yields_skip _ _ _ fun setObject => ?_
  refine yields_bind (fun set => filterSet batch options setObject = .ok set) _ _ _
    (yields_lift _ _ fun _ success => success) fun set isSet => ?_
  refine yields_bind _ _ _ _ (each _) fun expression held => ?_
  exact yields_skip _ _ _ fun negated =>
    yields_pure _ _ (rules.inSet expression setObject set negated held isSet)

private theorem cast_yields : Yields holds (cast batch child object) := by
  refine yields_skip _ _ _ fun _ => yields_skip _ _ _ fun target => ?_
  exact yields_bind _ _ _ _ (each _) fun expression held =>
    yields_pure _ _ (rules.cast expression target.ref target.field held)

private theorem negate_yields : Yields holds (negate child object) := by
  refine yields_skip _ _ _ fun _ => ?_
  exact yields_bind _ _ _ _ (each _) fun expression held =>
    yields_pure _ _ (rules.negate expression held)

private theorem call_yields : Yields holds (call options child object) := by
  refine yields_skip _ _ _ fun _ => yields_skip _ _ _ fun function => ?_
  refine yields_skip _ _ _ fun args => ?_
  refine yields_bind _ _ _ _ (yields_mapM _ _ _ fun _ => each _) fun parsed held => ?_
  exact yields_lift _ _ fun expression success =>
    callOptions_holds batch options holds rules object function parsed held expression success

private theorem runtimeFilter_yields (root : Bool) :
    Yields holds (runtimeFilter batch options child object root) := by
  have head : Yields (fun build : FilterExpression → FilterExpression =>
      ∀ input, holds input → holds (build input))
      (liftM (runtimeFilterHead batch options object root) :
        Reading (FilterExpression → FilterExpression)) := by
    refine yields_lift _ _ fun build success => ?_
    unfold runtimeFilterHead at success
    iterate 9 obtain ⟨_, _, success⟩ := except_bind_ok _ _ _ success
    cases success
    exact fun input held => rules.runtimeFilter _ input _ _ _ _ _ held
  refine yields_bind _ _ _ _ head fun build built => ?_
  exact yields_bind _ _ _ _ (each _) fun input held => yields_pure _ _ (built input held)

private theorem compound_yields (node : Text) (root : Bool) :
    Yields holds (compound batch options child object node root) := by
  unfold compound
  refine yields_ite _ _ _ _ (fieldRef_yields batch options holds rules child each object) ?_
  refine yields_ite _ _ _ _ (comparison_yields batch options holds rules child each object) ?_
  refine yields_ite _ _ _ _
    (junction_yields holds child each object node .and rules.and) ?_
  refine yields_ite _ _ _ _
    (junction_yields holds child each object node .or rules.or) ?_
  refine yields_ite _ _ _ _ (negation_yields batch options holds rules child each object) ?_
  refine yields_ite _ _ _ _ (isNull_yields batch options holds rules child each object) ?_
  refine yields_ite _ _ _ _ (inSet_yields batch options holds rules child each object) ?_
  refine yields_ite _ _ _ _ (cast_yields batch options holds rules child each object) ?_
  refine yields_ite _ _ _ _ (arithmetic_yields batch options holds rules child each object) ?_
  refine yields_ite _ _ _ _ (negate_yields batch options holds rules child each object) ?_
  refine yields_ite _ _ _ _ (call_yields batch options holds rules child each object) ?_
  refine yields_ite _ _ _ _
    (runtimeFilter_yields batch options holds rules child each object root) ?_
  exact yields_throw _ _

end Nodes

/-- Every expression the parser reads satisfies what its nodes keep. -/
theorem expression_yields (levels : Nat) (object : Json) (root : Bool) :
    Yields holds (expression batch options levels object root) := by
  induction levels generalizing object root with
  | zero => exact yields_throw _ _
  | succ levels ih =>
      have child (value : Option Json) : Yields holds (do
          let object ← expectObject value (text "child expression")
          expression batch options levels object false) :=
        yields_skip _ _ _ fun object => ih object false
      unfold expression
      refine yields_skip _ _ _ fun _ => ?_
      split
      · split
        · exact yields_lift _ _ (columnRef_holds batch options holds rules object)
        · split
          · exact yields_lift _ _ (literal_holds batch options holds rules object)
          · exact compound_yields batch options holds rules _ child object _ root
      · exact yields_throw _ _
      · exact yields_throw _ _

end FilterParser

/-! ## Documents -/

/-- A predicate whose expression satisfies `holds` and passed the checks on a root. -/
def Reads (holds : FilterExpression → Prop) (context : EvaluationContext)
    (predicate : FilterPredicate) : Prop :=
  holds predicate.expression ∧ validateRoot context predicate.mode predicate.expression = .ok ()

namespace FilterParser

variable (parser : FilterParser) (holds : FilterExpression → Prop)
  (rules : NodeRules parser.batch parser.options holds)

include rules

theorem predicate_yields (object : Json) (location : Text) (update : Bool) :
    Yields (Reads holds parser.context) (parser.predicate object location update) := by
  unfold predicate
  refine yields_skip _ _ _ fun _ => yields_skip _ _ _ fun modes => yields_skip _ _ _ fun root => ?_
  refine yields_bind _ _ _ _
    (expression_yields parser.batch parser.options holds rules maxDepth root true)
    fun expression held => ?_
  refine yields_bind (fun _ => validateRoot parser.context modes.1 expression = .ok ()) _ _ _
    (yields_lift _ _ fun _ success => success) fun _ valid => ?_
  refine yields_skip _ _ _ fun id => yields_skip _ _ _ fun revision => ?_
  exact yields_pure _ _ ⟨held, valid⟩

theorem snapshotPredicates_yields (entries : List Json) (index : Nat) :
    Yields (fun predicates : List FilterPredicate =>
        ∀ predicate ∈ predicates, Reads holds parser.context predicate)
      (parser.snapshotPredicates entries index) := by
  induction entries generalizing index with
  | nil => exact yields_pure _ [] fun _ member => absurd member List.not_mem_nil
  | cons entry rest ih =>
      unfold snapshotPredicates
      refine yields_skip _ _ _ fun object => ?_
      refine yields_bind _ _ _ _ (predicate_yields parser holds rules object _ false)
        fun first firstHeld => ?_
      refine yields_bind _ _ _ _ (ih (index + 1)) fun others othersHeld => ?_
      refine yields_pure _ _ fun predicate member => ?_
      cases member with
      | head => exact firstHeld
      | tail _ member => exact othersHeld predicate member

theorem readUpdates_yields (prior : PushdownFilters) (entries : List Json) (index : Nat)
    (seen : List Text) :
    Yields (fun updates : List Update => ∀ update ∈ updates, ∀ predicate,
        update.predicate = some predicate → Reads holds parser.context predicate)
      (parser.readUpdates prior entries index seen) := by
  induction entries generalizing index seen with
  | nil => exact yields_pure _ [] fun _ member => absurd member List.not_mem_nil
  | cons entry rest ih =>
      have operation (head : UpdateHeader) (location : Text) :
          Yields (fun installed : Option FilterPredicate =>
            ∀ predicate, installed = some predicate → Reads holds parser.context predicate)
            (parser.readOperation head location) := by
        unfold readOperation
        cases head.operation with
        | upsert =>
            refine yields_bind _ _ _ _ (predicate_yields parser holds rules head.object location true)
              fun predicate held => yields_pure _ _ fun installed same => ?_
            cases same
            exact held
        | remove => exact yields_pure _ _ nofun
      unfold readUpdates
      refine yields_skip _ _ _ fun head => yields_ite _ _ _ _ (ih (index + 1) (head.id :: seen)) ?_
      refine yields_bind _ _ _ _ (operation head _) fun installed held => ?_
      refine yields_bind _ _ _ _ (ih (index + 1) (head.id :: seen)) fun others othersHeld => ?_
      refine yields_pure _ _ fun update member => ?_
      cases member with
      | head => exact held
      | tail _ member => exact othersHeld update member

end FilterParser

theorem construct_sources (batch : Batch) (options : DeserializeFilterOptions)
    (parser : FilterParser) (success : FilterParser.construct batch options = .ok parser) :
    parser.batch = batch ∧ parser.options = options := by
  unfold FilterParser.construct at success
  iterate 9 obtain ⟨_, _, success⟩ := except_bind_ok _ _ _ success
  cases success
  exact ⟨rfl, rfl⟩

/-- What holds of the live predicates and of those the updates install holds of the predicates
that follow. -/
theorem applyUpdates_each (holds : FilterPredicate → Prop) (parser : FilterParser)
    (prior : PushdownFilters) (updates : List Update)
    (live : ∀ predicate ∈ prior.predicates, holds predicate)
    (installed : ∀ update ∈ updates, ∀ predicate, update.predicate = some predicate →
      holds predicate) :
    ∀ predicate ∈ (parser.applyUpdates prior updates).predicates, holds predicate := by
  have each (updates : List Update) (live : OrderedMap Text FilterPredicate)
      (held : ∀ entry ∈ live.entries, holds entry.2)
      (installed : ∀ update ∈ updates, ∀ predicate, update.predicate = some predicate →
        holds predicate) :
      ∀ entry ∈ (updates.foldl applyToLive live).entries, holds entry.2 := by
    induction updates generalizing live with
    | nil => exact held
    | cons update rest ih =>
        refine ih _ ?_ fun other member => installed other (List.mem_cons_of_mem _ member)
        intro entry member
        unfold applyToLive at member
        cases isInstalled : update.predicate with
        | none =>
            rw [isInstalled] at member
            exact held entry (List.mem_of_mem_filter member)
        | some predicate =>
            rw [isInstalled] at member
            rcases OrderedMap.mem_setEntry live.entries update.id predicate entry member with
              earlier | isNew
            · exact held entry earlier
            · rw [isNew]
              exact installed update List.mem_cons_self predicate isInstalled
  intro predicate member
  obtain ⟨entry, entryMem, rfl⟩ := List.mem_map.mp member
  refine each updates _ (fun entry isLive => ?_) installed entry entryMem
  obtain ⟨predicate, inPrior, rfl⟩ :=
    List.mem_map.mp (OrderedMap.mem_ofEntries _ entry isLive)
  exact live predicate inPrior

theorem deserializeFilters_each (batch : Batch) (options : DeserializeFilterOptions)
    (holds : FilterExpression → Prop) (rules : NodeRules batch options holds)
    (filters : PushdownFilters) (accepted : deserializeFilters batch options = .ok filters) :
    filters.options = options ∧
      ∀ predicate ∈ filters.predicates, Reads holds filters.evaluationContext predicate := by
  obtain ⟨parser, constructed, read⟩ := deserializeFilters_ok batch options filters accepted
  obtain ⟨rfl, rfl⟩ := construct_sources batch options parser constructed
  obtain ⟨entries, _, read⟩ := except_bind_ok _ _ _ read
  obtain ⟨_, _, read⟩ := except_bind_ok _ _ _ read
  obtain ⟨⟨predicates, after⟩, predicatesOk, read⟩ := except_bind_ok _ _ _ read
  obtain ⟨_, _, read⟩ := except_bind_ok _ _ _ read
  cases read
  exact ⟨rfl, snapshotPredicates_yields parser holds rules entries 0 0 predicates after predicatesOk⟩

/-- A delta keeps what holds of the live predicates and of every predicate the parser reads. -/
theorem applyDelta_each (current : PushdownFilters) (batch : Batch)
    (holds : FilterExpression → Prop) (rules : NodeRules batch current.options holds)
    (keeps : FilterPredicate → Prop)
    (installs : ∀ predicate, Reads holds current.evaluationContext predicate → keeps predicate)
    (live : ∀ predicate ∈ current.predicates, keeps predicate) (next : PushdownFilters)
    (accepted : current.applyDelta batch = .ok next) :
    next.options = current.options ∧ next.evaluationContext = current.evaluationContext ∧
      ∀ predicate ∈ next.predicates, keeps predicate := by
  obtain ⟨parser, entries, updates, after, constructed, context, _, read, _, result⟩ :=
    applyDelta_ok current batch next accepted
  obtain ⟨sameBatch, sameOptions⟩ := construct_sources batch current.options parser constructed
  rw [← sameOptions, ← sameBatch] at rules
  have installed := readUpdates_yields parser holds rules current entries 0 [] 0 updates after read
  rw [result]
  refine ⟨rfl, context, applyUpdates_each keeps parser current updates live ?_⟩
  intro update member predicate isInstalled
  exact installs predicate (context ▸ installed update member predicate isInstalled)

end VgiWorker.FilterPushdown
