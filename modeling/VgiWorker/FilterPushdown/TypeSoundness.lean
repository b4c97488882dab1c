import VgiWorker.Data.Kleene
import VgiWorker.FilterPushdown.ReadingRules
import VgiWorker.FilterPushdown.Replay
import VgiWorker.Js.OrderedMapRuns

/-!
# Type soundness of filter expressions

The parser assigns each expression a type, and the evaluator has no types. What
the parser accepts as a BOOLEAN evaluates to a truth value or throws.
-/

set_option autoImplicit false

namespace VgiWorker.FilterPushdown

open VgiWorker.Js VgiWorker.Arrow VgiWorker.Data.Kleene FilterParser

/-! ## Cells of a type -/

mutual

/-- The canonical values of a type. The evaluator tells BOOLEAN and STRUCT cells apart only:
any value may stand for a cell of another type. -/
def Conforms : DataType → Value → Prop
  | .bool, value => value = .null ∨ ∃ flag, value = .bool flag
  | .struct children, value => value = .null ∨
      ∃ members, MembersConform children members ∧
        value = .object (OrderedMap.ofEntries members).entries
  | _, _ => True

/-- One member for each child, under its name. -/
def MembersConform : List (FieldOf DataType) → List (Text × Value) → Prop
  | [], members => members = []
  | ⟨name, type, _, _⟩ :: rest, members =>
      ∃ value others, members = (name, value) :: others ∧ Conforms type value ∧
        MembersConform rest others

end

/-- A batch with the columns of a schema. -/
structure BatchConforms (schema : Schema) (batch : Batch) : Prop where
  fields : batch.schema.fields.map (fun field => (field.name, field.type)) =
    schema.fields.map fun field => (field.name, field.type)
  cells : ∀ (index : Nat) (field : Field) (column : Column),
    schema.fields[index]? = some field → batch.getChildAt index = some column →
    ∀ row, Conforms field.type (readCanonicalValue column row)

/-- The payload cells of a document are of the payload columns' types. -/
def PayloadsConform (document : Batch) : Prop :=
  ∀ (index : Nat) (field : Field) (column : Column),
    document.schema.fields[index]? = some field → document.getChildAt index = some column →
    Conforms field.type (readCanonicalValue column 0)

/-! ## The typing judgement -/

section

variable (schema : Schema)

inductive WellTyped : FilterExpression → Prop
  | columnRef (index : Nat) (field : Field) (found : schema.fields[index]? = some field) :
      WellTyped (.columnRef index field.name (some field.type))
  | fieldRef (expression : FilterExpression) (index : Nat) (children : List Field) (field : Field)
      (typed : WellTyped expression) (isStruct : expressionType expression = some (.struct children))
      (found : children[index]? = some field) :
      WellTyped (.fieldRef expression index field.name field.type)
  | literal (valueRef : Nat) (field : Field) (value : Value) (conforms : Conforms field.type value) :
      WellTyped (.literal valueRef field value)
  | comparison (op : ComparisonOp) (left right : FilterExpression) (leftTyped : WellTyped left)
      (rightTyped : WellTyped right) : WellTyped (.comparison op left right)
  | and (children : List FilterExpression) (typed : ∀ child ∈ children, WellTyped child)
      (boolean : ∀ child ∈ children, isBooleanExpression child = true) : WellTyped (.and children)
  | or (children : List FilterExpression) (typed : ∀ child ∈ children, WellTyped child)
      (boolean : ∀ child ∈ children, isBooleanExpression child = true) : WellTyped (.or children)
  | not (expression : FilterExpression) (typed : WellTyped expression)
      (boolean : isBooleanExpression expression = true) : WellTyped (.not expression)
  | isNull (expression : FilterExpression) (negated : Bool) (typed : WellTyped expression) :
      WellTyped (.isNull expression negated)
  | inSet (expression : FilterExpression) (set : FilterSet) (negated : Bool)
      (typed : WellTyped expression) : WellTyped (.inSet expression set negated)
  | cast (expression : FilterExpression) (typeRef : Nat) (field : Field)
      (typed : WellTyped expression) : WellTyped (.cast expression typeRef field)
  | arithmetic (op : ArithmeticOp) (left right : FilterExpression) (leftTyped : WellTyped left)
      (rightTyped : WellTyped right) : WellTyped (.arithmetic op left right)
  | negate (expression : FilterExpression) (typed : WellTyped expression) :
      WellTyped (.negate expression)
  | call (function : FilterFunction) (args : List FilterExpression) (options : Option Json)
      (typed : ∀ arg ∈ args, WellTyped arg) : WellTyped (.call function args options)
  | runtimeFilter (algorithm : FunctionIdentity) (input : FilterExpression) (artifactRef : Nat)
      (field : Field) (artifact : Value) (nullHandling : NullHandling) (supported : Bool)
      (typed : WellTyped input) :
      WellTyped (.runtimeFilter algorithm input artifactRef field artifact nullHandling supported)

/-- The later members of a struct have other names than the one at the index. -/
def SelectsMember (children : List Field) (index : Nat) (name : Text) : Prop :=
  ∀ later field, index < later → children[later]? = some field → field.name ≠ name

mutual

/-- The evaluator, which goes by names, finds what the parser bound: a column reference is to
the first column of its name, a field reference to the last member of its name. -/
def FindsByName : FilterExpression → Prop
  | .columnRef index name _ => schema.fields.findIdx? (·.name == name) = some index
  | .fieldRef expression index name _ =>
      (∀ children, expressionType expression = some (.struct children) →
        SelectsMember children index name) ∧ FindsByName expression
  | .literal _ _ _ => True
  | .comparison _ left right | .arithmetic _ left right => FindsByName left ∧ FindsByName right
  | .and children | .or children | .call _ children _ => AllFindByName children
  | .not expression | .isNull expression _ | .inSet expression _ _ | .cast expression _ _
  | .negate expression | .runtimeFilter _ expression _ _ _ _ _ => FindsByName expression

def AllFindByName : List FilterExpression → Prop
  | [] => True
  | expression :: rest => FindsByName expression ∧ AllFindByName rest

end

theorem findsByName_of_mem (expressions : List FilterExpression)
    (all : AllFindByName schema expressions) (expression : FilterExpression)
    (member : expression ∈ expressions) : FindsByName schema expression := by
  induction expressions with
  | nil => cases member
  | cons first rest ih =>
      cases member with
      | head => exact all.1
      | tail _ member => exact ih all.2 member

end

/-! ## Parsing -/

private theorem valueAt_ok (batch : Batch) (index : Nat) (value : Value)
    (success : valueAt batch index = .ok value) :
    ∃ column field, batch.getChildAt index = some column ∧
      batch.schema.fields[index]? = some field ∧ value = readCanonicalValue column 0 := by
  unfold valueAt at success
  split at success
  · rename_i column field columnAt fieldAt
    cases success
    exact ⟨column, field, columnAt, fieldAt, rfl⟩
  · cases success

private theorem payload_conforms (batch : Batch) (conforms : PayloadsConform batch) (kind : Text)
    (rawRef : Option Json) (read : Payload) (success : payload batch kind rawRef = .ok read) :
    Conforms read.field.type read.value := by
  obtain ⟨ref, _, success⟩ := except_bind_ok _ _ _ success
  dsimp only at success
  split at success
  · rename_i field index named
    obtain ⟨value, isValue, success⟩ := except_bind_ok _ _ _ success
    cases success
    obtain ⟨column, held, columnAt, fieldAt, rfl⟩ := valueAt_ok batch index value isValue
    have member : (field, index) ∈
        fieldsNamed batch.schema.fields (kind ++ text "_" ++ Number.decimal ref) := by
      rw [named]
      exact List.mem_singleton.mpr rfl
    have here : batch.schema.fields[index]? = some field :=
      List.mem_zipIdx_iff_getElem?.mp (List.mem_of_mem_filter member)
    exact conforms index field column here columnAt
  · cases success

private theorem wellTyped_rules (batch : Batch) (options : DeserializeFilterOptions)
    (conforms : PayloadsConform batch) :
    NodeRules batch options (WellTyped options.outputSchema) where
  columnRef index field found := .columnRef index field found
  literal rawRef read isRead :=
    .literal _ _ _ (payload_conforms batch conforms (text "value") rawRef read isRead)
  fieldRef expression index children field typed isStruct found :=
    .fieldRef expression index children field typed isStruct found
  comparison op left right leftTyped rightTyped := .comparison op left right leftTyped rightTyped
  and children each :=
    .and children (fun child member => (each child member).1) fun child member =>
      (each child member).2
  or children each :=
    .or children (fun child member => (each child member).1) fun child member =>
      (each child member).2
  not expression typed boolean := .not expression typed boolean
  isNull expression negated typed := .isNull expression negated typed
  inSet expression _ set negated typed _ := .inSet expression set negated typed
  cast expression typeRef field typed := .cast expression typeRef field typed
  arithmetic op left right leftTyped rightTyped := .arithmetic op left right leftTyped rightTyped
  negate expression typed := .negate expression typed
  call function args options typed := .call function args options typed
  runtimeFilter algorithm input artifactRef field artifact nullHandling supported typed :=
    .runtimeFilter algorithm input artifactRef field artifact nullHandling supported typed

/-! ## Evaluation -/

/-- The canonical value of a truth value. -/
def ofTruth : Truth → Value
  | none => .null
  | some value => .bool value

def readTruth : Value → Except Fault Truth
  | .null => .ok none
  | .bool value => .ok (some value)
  | _ => .error .typeError

section

variable (batch : Batch) (row : Nat) (context : EvaluationContext)

mutual

/-- A BOOLEAN expression in three-valued logic. -/
def verdict : FilterExpression → Except Fault Truth
  | .and children => do
      let truths ← verdicts children
      .ok (all truths)
  | .or children => do
      let truths ← verdicts children
      .ok (any truths)
  | .not expression => do
      let truth ← verdict expression
      .ok (negate truth)
  | expression => do
      let value ← evaluateExpression batch row context expression
      readTruth value

def verdicts : List FilterExpression → Except Fault (List Truth)
  | [] => .ok []
  | expression :: rest => do
      let truth ← verdict expression
      let truths ← verdicts rest
      .ok (truth :: truths)

end

private theorem evaluateEach_verdicts (children : List FilterExpression)
    (each : ∀ child ∈ children, evaluateExpression batch row context child =
      (verdict batch row context child).map ofTruth) :
    evaluateEach batch row context children =
      (verdicts batch row context children).map (List.map ofTruth) := by
  induction children with
  | nil => rfl
  | cons child rest ih =>
      rw [evaluateEach, verdicts, each child List.mem_cons_self,
        ih fun other member => each other (List.mem_cons_of_mem _ member)]
      cases verdict batch row context child with
      | error fault => rfl
      | ok truth =>
          cases verdicts batch row context rest with
          | error fault => rfl
          | ok truths => rfl

end

/-! ### Members and casts -/

private theorem conforms_bool (value : Value) (held : Conforms .bool value) :
    ∃ truth, value = ofTruth truth := by
  rw [Conforms] at held
  obtain rfl | ⟨flag, rfl⟩ := held
  · exact ⟨none, rfl⟩
  · exact ⟨some flag, rfl⟩

private theorem conforms_null (type : DataType) : Conforms type .null := by
  cases type <;> simp [Conforms]

private theorem membersConform_names (children : List Field) (members : List (Text × Value))
    (conform : MembersConform children members) :
    members.map Prod.fst = children.map FieldOf.name := by
  induction children generalizing members with
  | nil => rw [show members = [] from conform]; rfl
  | cons child rest ih =>
      obtain ⟨name, type, nullable, metadata⟩ := child
      rw [MembersConform] at conform
      obtain ⟨value, others, rfl, _, conform⟩ := conform
      rw [List.map_cons, List.map_cons, ih others conform]

/-- The member an object holds last under a name. -/
private theorem membersConform_lookup (children : List Field) (members : List (Text × Value))
    (conform : MembersConform children members) (index : Nat) (field : Field)
    (found : children[index]? = some field) (last : SelectsMember children index field.name) :
    ∃ value, OrderedMap.lastOf members field.name = some value ∧ Conforms field.type value := by
  induction children generalizing members index with
  | nil => cases found
  | cons child rest ih =>
      obtain ⟨name, type, nullable, metadata⟩ := child
      rw [MembersConform] at conform
      obtain ⟨value, others, rfl, held, conform⟩ := conform
      cases index with
      | zero =>
          cases found
          refine ⟨value, ?_, held⟩
          have absent : OrderedMap.lastOf others name = none := by
            rw [OrderedMap.lastOf, ← Option.not_isSome_iff_eq_none, lookupEntry_isSome,
              List.map_reverse, List.mem_reverse, membersConform_names rest others conform]
            intro member
            obtain ⟨other, inRest, sameName⟩ := List.mem_map.mp member
            obtain ⟨later, isLater⟩ := List.mem_iff_getElem?.mp inRest
            exact last (later + 1) other (by omega) isLater sameName
          rw [OrderedMap.lastOf_cons, absent]
          simp
      | succ index =>
          obtain ⟨inner, isInner, innerHeld⟩ := ih others conform index found
            fun later other after isLater => last (later + 1) other (by omega) isLater
          refine ⟨inner, ?_, innerHeld⟩
          rw [OrderedMap.lastOf_cons, isInner]
          rfl

private theorem fieldRef_conforms (children : List Field) (index : Nat) (field : Field)
    (found : children[index]? = some field) (last : SelectsMember children index field.name)
    (parent : Value) (held : Conforms (.struct children) parent) :
    Conforms field.type (evaluateField parent index field.name) := by
  rw [Conforms] at held
  obtain rfl | ⟨members, conform, rfl⟩ := held
  · exact conforms_null field.type
  · obtain ⟨value, isValue, valueHeld⟩ :=
      membersConform_lookup children members conform index field found last
    have lookup : lookupEntry (OrderedMap.ofEntries members).entries field.name = some value := by
      have set := OrderedMap.get?_setAll OrderedMap.empty members field.name
      rw [isValue] at set
      exact set
    rw [evaluateField, lookup]
    exact valueHeld

private theorem castValue_conforms (value result : Value) (type : DataType)
    (success : castValue value type = .ok result) : Conforms type result := by
  cases type with
  | bool =>
      rw [Conforms]
      unfold castValue at success
      split at success
      · cases success
        exact .inl rfl
      · simp only [DataType.isUtf8, DataType.isBool, Bool.false_eq_true, if_false, if_true] at success
        split at success
        · cases success
          exact .inr ⟨_, rfl⟩
        · split at success
          · cases success
            exact .inr ⟨_, rfl⟩
          · split at success
            · cases success
              exact .inr ⟨_, rfl⟩
            · cases success
  | struct children =>
      unfold castValue at success
      split at success
      · cases success
        exact conforms_null _
      · cases success
  | _ => simp [Conforms]

/-! ### BOOLEAN nodes -/

private theorem compare_truth (left right : Value) (op : ComparisonOp) :
    ∃ truth, compare left right op = ofTruth truth := by
  unfold compare
  dsimp only
  split
  · exact ⟨some _, rfl⟩
  · exact ⟨some _, rfl⟩
  · split
    · exact ⟨none, rfl⟩
    · exact ⟨some _, rfl⟩

private theorem any_ofTruth (test : Value → Bool) (value : Truth)
    (only : ∀ truth, test (ofTruth truth) = true ↔ truth = value) (truths : List Truth) :
    (truths.map ofTruth).any test = true ↔ value ∈ truths := by
  rw [List.any_map, List.any_eq_true]
  constructor
  · intro ⟨truth, member, held⟩
    exact (only truth).mp held ▸ member
  · exact fun member => ⟨value, member, (only value).mpr rfl⟩

private theorem any_isNullValue (truths : List Truth) :
    (truths.map ofTruth).any isNullValue = true ↔ none ∈ truths :=
  any_ofTruth isNullValue none (fun truth => by rcases truth with _ | _ | _ <;> decide) truths

private theorem andKleene_truth (truths : List Truth) :
    andKleene (truths.map ofTruth) = ofTruth (all truths) := by
  have someFalse := any_ofTruth isFalseValue (some false)
    (fun truth => by rcases truth with _ | _ | _ <;> decide) truths
  unfold andKleene
  split
  · rename_i isFalse
    rw [(all_eq_false truths).mpr (someFalse.mp isFalse)]
    rfl
  · rename_i notFalse
    have unfailed : all truths ≠ some false := fun failed =>
      notFalse (someFalse.mpr ((all_eq_false truths).mp failed))
    split
    · rename_i isNull
      have unmet : all truths ≠ some true := fun met =>
        nomatch (all_eq_true truths).mp met none ((any_isNullValue truths).mp isNull)
      rcases result : all truths with _ | _ | _
      · rfl
      · exact absurd result unfailed
      · exact absurd result unmet
    · rename_i notNull
      have met : all truths = some true := by
        refine (all_eq_true truths).mpr fun truth member => ?_
        rcases truth with _ | _ | _
        · exact absurd ((any_isNullValue truths).mpr member) notNull
        · exact absurd (someFalse.mpr member) notFalse
        · rfl
      rw [met]
      rfl

private theorem orKleene_truth (truths : List Truth) :
    orKleene (truths.map ofTruth) = ofTruth (any truths) := by
  have someTrue := any_ofTruth isTrueValue (some true)
    (fun truth => by rcases truth with _ | _ | _ <;> decide) truths
  unfold orKleene
  split
  · rename_i isTrue
    rw [(any_eq_true truths).mpr (someTrue.mp isTrue)]
    rfl
  · rename_i notTrue
    have unmet : any truths ≠ some true := fun met =>
      notTrue (someTrue.mpr ((any_eq_true truths).mp met))
    split
    · rename_i isNull
      have unfailed : any truths ≠ some false := fun failed =>
        nomatch (any_eq_false truths).mp failed none ((any_isNullValue truths).mp isNull)
      rcases result : any truths with _ | _ | _
      · rfl
      · exact absurd result unfailed
      · exact absurd result unmet
    · rename_i notNull
      have failed : any truths = some false := by
        refine (any_eq_false truths).mpr fun truth member => ?_
        rcases truth with _ | _ | _
        · exact absurd ((any_isNullValue truths).mpr member) notNull
        · rfl
        · exact absurd (someTrue.mpr member) notTrue
      rw [failed]
      rfl

private theorem evaluateIn_truth (input : Value) (values : List Value) (negated : Bool) :
    ∃ truth, evaluateIn input values negated = ofTruth truth := by
  unfold evaluateIn
  split
  · exact ⟨none, rfl⟩
  · split
    · exact ⟨some _, rfl⟩
    · split
      · exact ⟨none, rfl⟩
      · exact ⟨some _, rfl⟩

private theorem evaluateCall_truth (function : FilterFunction) (args : List Value) (value : Value)
    (success : evaluateCall function args = .ok value) : ∃ truth, value = ofTruth truth := by
  unfold evaluateCall at success
  split at success
  · cases success
    exact ⟨none, rfl⟩
  · cases function with
    | standard function =>
        cases success
        cases function with
        | listContains =>
            unfold evaluateStandard
            dsimp only
            split
            · exact ⟨some _, rfl⟩
            · exact ⟨some _, rfl⟩
        | _ => exact ⟨some _, rfl⟩
    | extension identity =>
        dsimp only at success
        unfold evaluateExtension at success
        split at success
        · cases success
        · obtain ⟨left, _, success⟩ := except_bind_ok _ _ _ success
          obtain ⟨right, _, success⟩ := except_bind_ok _ _ _ success
          split at success
          · cases success
            exact ⟨some _, rfl⟩
          · cases success
            exact ⟨some _, rfl⟩

private theorem readTruth_ofTruth (truth : Truth) : readTruth (ofTruth truth) = .ok truth := by
  cases truth <;> rfl

/-- What evaluates to truth values only is its own verdict. -/
private theorem evaluate_readTruth (step : Except Fault Value)
    (boolean : ∀ value, step = .ok value → ∃ truth, value = ofTruth truth) :
    step = (step.bind readTruth).map ofTruth := by
  cases step with
  | error fault => rfl
  | ok value =>
      obtain ⟨truth, rfl⟩ := boolean value rfl
      rw [Except.bind, readTruth_ofTruth]
      rfl

/-! ### Expressions -/

section

variable (schema : Schema) (batch : Batch) (conforms : BatchConforms schema batch) (row : Nat)
  (context : EvaluationContext)

include conforms

private theorem columnRef_conforms (index : Nat) (field : Field)
    (found : schema.fields[index]? = some field)
    (first : schema.fields.findIdx? (·.name == field.name) = some index) (value : Value)
    (evaluated : evaluateExpression batch row context
      (.columnRef index field.name (some field.type)) = .ok value) :
    Conforms field.type value := by
  have names : batch.schema.fields.map FieldOf.name = schema.fields.map FieldOf.name := by
    have both := congrArg (List.map Prod.fst) conforms.fields
    rwa [List.map_map, List.map_map] at both
  have here : batch.schema.fields.findIdx? (·.name == field.name) = some index := by
    have moved (fields : List Field) : fields.findIdx? (·.name == field.name) =
        (fields.map FieldOf.name).findIdx? (· == field.name) := by
      rw [List.findIdx?_map]
      rfl
    rw [moved, names, ← moved, first]
  rw [evaluateExpression, resolveColumn, here, except_ok_bind] at evaluated
  cases columnAt : batch.getChildAt index with
  | none =>
      rw [columnAt] at evaluated
      cases evaluated
      exact conforms_null field.type
  | some column =>
      rw [columnAt] at evaluated
      cases evaluated
      exact conforms.cells index field column found columnAt row

/-- A value the evaluator gives is of the type the parser assigned. -/
theorem evaluateExpression_conforms (expression : FilterExpression)
    (typed : WellTyped schema expression) (finds : FindsByName schema expression) (type : DataType)
    (assigned : expressionType expression = some type) (value : Value)
    (evaluated : evaluateExpression batch row context expression = .ok value) :
    Conforms type value := by
  induction typed generalizing type value with
  | columnRef index field found =>
      cases assigned
      exact columnRef_conforms schema batch conforms row context index field found finds value evaluated
  | fieldRef expression index children field typed isStruct found ih =>
      cases assigned
      obtain ⟨last, finds⟩ := finds
      rw [evaluateExpression] at evaluated
      obtain ⟨parent, isParent, evaluated⟩ := except_bind_ok _ _ _ evaluated
      cases evaluated
      exact fieldRef_conforms children index field found (last children isStruct) parent
        (ih finds (.struct children) isStruct parent isParent)
  | literal valueRef field held conforms =>
      cases assigned
      rw [evaluateExpression] at evaluated
      cases evaluated
      exact conforms
  | cast expression typeRef field typed ih =>
      cases assigned
      rw [evaluateExpression] at evaluated
      obtain ⟨operand, _, evaluated⟩ := except_bind_ok _ _ _ evaluated
      exact castValue_conforms operand value field.type evaluated
  | _ => cases assigned

/-- An expression accepted for its assigned type evaluates to a value of BOOLEAN. -/
private theorem assigned_truth (expression : FilterExpression)
    (typed : WellTyped schema expression) (finds : FindsByName schema expression)
    (boolean : hasType expression DataType.isBool = true) :
    evaluateExpression batch row context expression =
      ((evaluateExpression batch row context expression).bind readTruth).map ofTruth := by
  unfold hasType at boolean
  cases assigned : expressionType expression with
  | none =>
      rw [assigned] at boolean
      cases boolean
  | some type =>
      rw [assigned] at boolean
      refine evaluate_readTruth _ fun value evaluated => ?_
      have held := evaluateExpression_conforms schema batch conforms row context expression typed
        finds type assigned value evaluated
      cases type with
      | bool => exact conforms_bool value held
      | _ => cases boolean

/-- What the parser accepts as BOOLEAN evaluates as in three-valued logic. -/
theorem evaluateExpression_verdict (expression : FilterExpression)
    (typed : WellTyped schema expression) (boolean : isBooleanExpression expression = true)
    (finds : FindsByName schema expression) :
    evaluateExpression batch row context expression =
      (verdict batch row context expression).map ofTruth := by
  induction typed with
  | and children typed booleans ih =>
      rw [FindsByName] at finds
      rw [evaluateExpression, verdict, evaluateEach_verdicts batch row context children
        fun child member => ih child member (booleans child member)
          (findsByName_of_mem schema children finds child member)]
      cases verdicts batch row context children with
      | error fault => rfl
      | ok truths => exact congrArg Except.ok (andKleene_truth truths)
  | or children typed booleans ih =>
      rw [FindsByName] at finds
      rw [evaluateExpression, verdict, evaluateEach_verdicts batch row context children
        fun child member => ih child member (booleans child member)
          (findsByName_of_mem schema children finds child member)]
      cases verdicts batch row context children with
      | error fault => rfl
      | ok truths => exact congrArg Except.ok (orKleene_truth truths)
  | not expression typed inner ih =>
      rw [FindsByName] at finds
      rw [evaluateExpression, verdict, ih inner finds]
      cases verdict batch row context expression with
      | error fault => rfl
      | ok truth => rcases truth with _ | _ | _ <;> rfl
  | columnRef index field found =>
      exact assigned_truth schema batch conforms row context _ (.columnRef index field found) finds
        boolean
  | fieldRef expression index children field typed isStruct found =>
      exact assigned_truth schema batch conforms row context _
        (.fieldRef expression index children field typed isStruct found) finds boolean
  | literal valueRef field value held =>
      exact assigned_truth schema batch conforms row context _ (.literal valueRef field value held)
        finds boolean
  | cast expression typeRef field typed =>
      exact assigned_truth schema batch conforms row context _ (.cast expression typeRef field typed)
        finds boolean
  | comparison op left right =>
      refine evaluate_readTruth _ fun value evaluated => ?_
      rw [evaluateExpression] at evaluated
      obtain ⟨leftValue, _, evaluated⟩ := except_bind_ok _ _ _ evaluated
      obtain ⟨rightValue, _, evaluated⟩ := except_bind_ok _ _ _ evaluated
      cases evaluated
      exact compare_truth leftValue rightValue op
  | isNull expression negated =>
      refine evaluate_readTruth _ fun value evaluated => ?_
      rw [evaluateExpression] at evaluated
      obtain ⟨operand, _, evaluated⟩ := except_bind_ok _ _ _ evaluated
      cases evaluated
      exact ⟨some _, rfl⟩
  | inSet expression set negated =>
      refine evaluate_readTruth _ fun value evaluated => ?_
      rw [evaluateExpression] at evaluated
      obtain ⟨input, _, evaluated⟩ := except_bind_ok _ _ _ evaluated
      cases evaluated
      exact evaluateIn_truth input set.values negated
  | call function args options =>
      refine evaluate_readTruth _ fun value evaluated => ?_
      rw [evaluateExpression] at evaluated
      obtain ⟨values, _, evaluated⟩ := except_bind_ok _ _ _ evaluated
      exact evaluateCall_truth function values value evaluated
  | runtimeFilter => rfl
  | arithmetic => cases boolean
  | negate => cases boolean

end

/-! ## Filter sets -/

/-- The filters that a snapshot document and the deltas after it lead to. -/
inductive Accepted (options : DeserializeFilterOptions) : PushdownFilters → Prop
  | snapshot (document : Batch) (filters : PushdownFilters) (conform : PayloadsConform document)
      (accepted : deserializeFilters document options = .ok filters) : Accepted options filters
  | delta (current : PushdownFilters) (document : Batch) (next : PushdownFilters)
      (earlier : Accepted options current) (conform : PayloadsConform document)
      (accepted : current.applyDelta document = .ok next) : Accepted options next

theorem Accepted.reads {options : DeserializeFilterOptions} {filters : PushdownFilters}
    (accepted : Accepted options filters) :
    filters.options = options ∧ ∀ predicate ∈ filters.predicates,
      Reads (WellTyped options.outputSchema) filters.evaluationContext predicate := by
  induction accepted with
  | snapshot document filters conform accepted =>
      exact deserializeFilters_each document options _ (wellTyped_rules document options conform)
        filters accepted
  | delta current document next _ conform accepted ih =>
      obtain ⟨same, live⟩ := ih
      have rules := wellTyped_rules document current.options conform
      rw [same] at rules
      obtain ⟨options, context, each⟩ := applyDelta_each current document _ (same ▸ rules)
        (Reads (WellTyped options.outputSchema) current.evaluationContext) (fun _ read => read) live
        next accepted
      rw [context]
      exact ⟨options.trans same, each⟩

private theorem boolean_of_validateRoot (context : EvaluationContext) (mode : PredicateMode)
    (root : FilterExpression) (valid : validateRoot context mode root = .ok ()) :
    isBooleanExpression root = true ∧ (mode = .required → isSkipped root = false) := by
  obtain ⟨_, _, valid⟩ := except_bind_ok _ _ _ valid
  obtain ⟨_, optional, boolean⟩ := except_bind_ok _ _ _ valid
  have notFilter := refuse_ok _ _ _ optional
  have isBoolean := refuse_ok _ _ _ boolean
  cases root with
  | runtimeFilter algorithm input artifactRef field artifact nullHandling supported =>
      refine ⟨rfl, fun required => absurd ⟨rfl, ?_⟩ notFilter⟩
      rw [required]
      nofun
  | _ => exact ⟨by simpa [isRuntimeFilter] using isBoolean, fun _ => rfl⟩

namespace PushdownFilters

section

variable (context : EvaluationContext) (batch : Batch)

/-- The values of a predicate that has a say: an unavailable runtime filter has none, nor has
a predicate that throws on some row. -/
def judgement (predicate : FilterPredicate) : Option (List Value) :=
  if isSkipped predicate.expression then none
  else (evaluateRows context batch predicate.expression).toOption

private theorem judgement_ok (predicate : FilterPredicate) (values : List Value)
    (unskipped : ¬isSkipped predicate.expression = true)
    (evaluated : evaluateRows context batch predicate.expression = .ok values) :
    judgement context batch predicate = some values := by
  rw [judgement, if_neg unskipped, evaluated]
  rfl

theorem evaluateFrom_ok (predicates : List FilterPredicate) (mask result : List Bool)
    (success : evaluateFrom context batch predicates mask = .ok result) :
    (∀ predicate ∈ predicates, predicate.mode = .required → isSkipped predicate.expression = false →
      (judgement context batch predicate).isSome) ∧
      result = (predicates.filterMap (judgement context batch)).foldl narrowMask mask := by
  induction predicates generalizing mask with
  | nil =>
      cases success
      exact ⟨nofun, rfl⟩
  | cons predicate rest ih =>
      rw [evaluateFrom] at success
      split at success
      · rename_i skipped
        obtain ⟨each, isResult⟩ := ih mask success
        have unheard : judgement context batch predicate = none := if_pos skipped
        rw [List.filterMap_cons_none unheard]
        refine ⟨fun other member required unskipped => ?_, isResult⟩
        cases member with
        | head => exact absurd skipped (by rw [unskipped]; exact Bool.false_ne_true)
        | tail _ member => exact each other member required unskipped
      · rename_i unskipped
        split at success
        · rename_i values evaluated
          obtain ⟨each, isResult⟩ := ih (narrowMask mask values) success
          have heard := judgement_ok context batch predicate values unskipped evaluated
          rw [List.filterMap_cons_some heard]
          refine ⟨fun other member required unskipped => ?_, isResult⟩
          cases member with
          | head => rw [heard]; rfl
          | tail _ member => exact each other member required unskipped
        · rename_i fault evaluated
          split at success
          · rename_i advisory
            obtain ⟨each, isResult⟩ := ih mask success
            have unheard : judgement context batch predicate = none := by
              rw [judgement, if_neg unskipped, evaluated]
              rfl
            rw [List.filterMap_cons_none unheard]
            refine ⟨fun other member required unskipped => ?_, isResult⟩
            cases member with
            | head => cases required.symm.trans advisory
            | tail _ member => exact each other member required unskipped
          · cases success

theorem evaluateFrom_error (predicates : List FilterPredicate) (mask : List Bool) (fault : Fault)
    (failed : evaluateFrom context batch predicates mask = .error fault) :
    ∃ predicate ∈ predicates, predicate.mode = .required ∧
      isSkipped predicate.expression = false ∧
      evaluateRows context batch predicate.expression = .error fault := by
  induction predicates generalizing mask with
  | nil => cases failed
  | cons predicate rest ih =>
      have later (mask : List Bool) (failed : evaluateFrom context batch rest mask = .error fault) :
          ∃ other ∈ predicate :: rest, other.mode = .required ∧
            isSkipped other.expression = false ∧
            evaluateRows context batch other.expression = .error fault := by
        obtain ⟨other, member, found⟩ := ih mask failed
        exact ⟨other, List.mem_cons_of_mem _ member, found⟩
      rw [evaluateFrom] at failed
      split at failed
      · exact later mask failed
      · rename_i unskipped
        split at failed
        · exact later _ failed
        · rename_i evaluated
          split at failed
          · exact later mask failed
          · rename_i required
            cases failed
            refine ⟨predicate, List.mem_cons_self, ?_, by simpa using unskipped, evaluated⟩
            cases mode : predicate.mode with
            | required => rfl
            | advisory => exact absurd mode required

end

/-! ### Masks -/

private theorem length_foldl_narrowMask (columns : List (List Value)) (mask : List Bool)
    (lengths : ∀ column ∈ columns, column.length = mask.length) :
    (columns.foldl narrowMask mask).length = mask.length := by
  induction columns generalizing mask with
  | nil => rfl
  | cons column rest ih =>
      have narrowed : (narrowMask mask column).length = mask.length := by
        rw [narrowMask, List.length_zipWith, lengths column List.mem_cons_self, Nat.min_self]
      rw [List.foldl_cons, ih, narrowed]
      intro other member
      rw [narrowed]
      exact lengths other (List.mem_cons_of_mem _ member)

private theorem getElem?_foldl_narrowMask (columns : List (List Value)) (mask : List Bool)
    (row : Nat) :
    (columns.foldl narrowMask mask)[row]? = some true ↔ mask[row]? = some true ∧
      ∀ column ∈ columns, column[row]? = some (.bool true) := by
  induction columns generalizing mask with
  | nil => simp
  | cons column rest ih =>
      have narrowed : (narrowMask mask column)[row]? = some true ↔
          mask[row]? = some true ∧ column[row]? = some (.bool true) := by
        rw [narrowMask, List.getElem?_zipWith]
        cases mask[row]? with
        | none => simp
        | some kept =>
            cases column[row]? with
            | none => simp
            | some value => cases kept <;> rcases value with _ | (_ | _) | _ <;> simp [isTrueValue]
      rw [List.foldl_cons, ih, narrowed, List.forall_mem_cons, and_assoc]

section

variable (filters : PushdownFilters) (batch : Batch) (row : Nat)

/-- The predicates that have a say on a batch. -/
def judges : List FilterPredicate :=
  filters.predicates.filter fun predicate =>
    (judgement filters.evaluationContext batch predicate).isSome

/-- The conjunction of the predicates on a row, in three-valued logic. -/
def conjunction : Except Fault Truth := do
  let truths ← (filters.judges batch).mapM fun predicate =>
    verdict batch row filters.evaluationContext predicate.expression
  .ok (all truths)

end

private theorem judgement_some (context : EvaluationContext) (batch : Batch)
    (predicate : FilterPredicate) (values : List Value)
    (heard : judgement context batch predicate = some values) :
    evaluateRows context batch predicate.expression = .ok values := by
  unfold judgement at heard
  split at heard
  · cases heard
  · cases evaluated : evaluateRows context batch predicate.expression with
    | error fault =>
        rw [evaluated] at heard
        cases heard
    | ok held =>
        rw [evaluated] at heard
        cases heard
        rfl

/-- A predicate that has a say has a truth value on each row, which is what it evaluates to. -/
private theorem judgement_truth (context : EvaluationContext) (batch : Batch)
    (predicate : FilterPredicate) (values : List Value)
    (heard : judgement context batch predicate = some values) (row : Nat)
    (within : row < batch.numRows)
    (sound : evaluateExpression batch row context predicate.expression =
      (verdict batch row context predicate.expression).map ofTruth) :
    ∃ truth, verdict batch row context predicate.expression = .ok truth ∧
      values[row]? = some (ofTruth truth) := by
  obtain ⟨value, here, evaluated⟩ := except_mapM_getElem? _ _ _
    (judgement_some context batch predicate values heard) row row (List.getElem?_range within)
  rw [sound] at evaluated
  cases judged : verdict batch row context predicate.expression with
  | error fault =>
      rw [judged] at evaluated
      cases evaluated
  | ok truth =>
      rw [judged] at evaluated
      cases evaluated
      exact ⟨truth, rfl, here⟩

private theorem ofTruth_true (truth : Truth) : ofTruth truth = .bool true ↔ truth = some true := by
  rcases truth with _ | _ | _ <;> simp [ofTruth]

/-- A row is kept exactly when the conjunction is TRUE. -/
private theorem kept_iff_conjunction (filters : PushdownFilters) (batch : Batch) (mask : List Bool)
    (isMask : filters.evaluate batch = .ok mask) (row : Nat) (within : row < batch.numRows)
    (sound : ∀ predicate ∈ filters.predicates,
      evaluateExpression batch row filters.evaluationContext predicate.expression =
        (verdict batch row filters.evaluationContext predicate.expression).map ofTruth) :
    ∃ truth, filters.conjunction batch row = .ok truth ∧
      (mask[row]? = some true ↔ truth = some true) := by
  have each : ∀ predicate ∈ filters.judges batch, ∃ values,
      judgement filters.evaluationContext batch predicate = some values ∧
        ∃ truth, verdict batch row filters.evaluationContext predicate.expression = .ok truth ∧
          values[row]? = some (ofTruth truth) := by
    intro predicate member
    obtain ⟨inFilters, isHeard⟩ := List.mem_filter.mp member
    obtain ⟨values, heard⟩ := Option.isSome_iff_exists.mp isHeard
    exact ⟨values, heard, judgement_truth filters.evaluationContext batch predicate values heard row
      within (sound predicate inFilters)⟩
  obtain ⟨truths, areTruths⟩ := except_mapM_exists
    (fun predicate : FilterPredicate =>
      verdict batch row filters.evaluationContext predicate.expression)
    (filters.judges batch) fun predicate member => by
      obtain ⟨_, _, truth, isTruth, _⟩ := each predicate member
      exact ⟨truth, isTruth⟩
  refine ⟨all truths, by rw [conjunction, areTruths]; rfl, ?_⟩
  obtain ⟨_, isResult⟩ := evaluateFrom_ok _ _ _ _ _ isMask
  rw [isResult, getElem?_foldl_narrowMask, all_eq_true]
  have start : (List.replicate batch.numRows true)[row]? = some true := by simp [within]
  constructor
  · intro ⟨_, columns⟩ truth member
    obtain ⟨predicate, judges, isTruth⟩ := except_mapM_sources _ _ _ areTruths truth member
    obtain ⟨values, heard, other, isOther, here⟩ := each predicate judges
    cases isTruth.symm.trans isOther
    have column := columns values
      (List.mem_filterMap.mpr ⟨predicate, List.mem_of_mem_filter judges, heard⟩)
    rw [here] at column
    exact (ofTruth_true truth).mp (Option.some.inj column)
  · intro truth
    refine ⟨start, fun values member => ?_⟩
    obtain ⟨predicate, inFilters, heard⟩ := List.mem_filterMap.mp member
    have judges : predicate ∈ filters.judges batch :=
      List.mem_filter.mpr ⟨inFilters, by rw [heard]; rfl⟩
    obtain ⟨others, sameHeard, verdictOf, isVerdict, here⟩ := each predicate judges
    cases heard.symm.trans sameHeard
    obtain ⟨index, isHere⟩ := List.mem_iff_getElem?.mp judges
    obtain ⟨found, inTruths, isFound⟩ := except_mapM_getElem? _ _ _ areTruths index predicate isHere
    cases isVerdict.symm.trans isFound
    rw [here, truth verdictOf (List.mem_of_getElem? inTruths)]
    rfl

end PushdownFilters

/-- On a batch of the output schema, each predicate of accepted filters evaluates to a truth
value or throws, as in three-valued logic. A required predicate that throws makes the
evaluation throw; else a row is kept exactly when the conjunction is TRUE of the predicates
that have a say, which every required one has. -/
theorem filters_type_sound (options : DeserializeFilterOptions) (filters : PushdownFilters)
    (accepted : Accepted options filters) (batch : Batch)
    (conforms : BatchConforms options.outputSchema batch)
    (finds : ∀ predicate ∈ filters.predicates,
      FindsByName options.outputSchema predicate.expression) :
    (∀ predicate ∈ filters.predicates, ∀ row,
      evaluateExpression batch row filters.evaluationContext predicate.expression =
        (verdict batch row filters.evaluationContext predicate.expression).map ofTruth) ∧
    match filters.evaluate batch with
    | .error fault => ∃ predicate ∈ filters.predicates, predicate.mode = .required ∧
        PushdownFilters.evaluateRows filters.evaluationContext batch predicate.expression =
          .error fault
    | .ok mask => mask.length = batch.numRows ∧
        (∀ predicate ∈ filters.predicates, predicate.mode = .required →
          predicate ∈ filters.judges batch) ∧
        ∀ row < batch.numRows, ∃ truth, filters.conjunction batch row = .ok truth ∧
          (mask[row]? = some true ↔ truth = some true) := by
  obtain ⟨_, reads⟩ := accepted.reads
  have sound : ∀ predicate ∈ filters.predicates, ∀ row,
      evaluateExpression batch row filters.evaluationContext predicate.expression =
        (verdict batch row filters.evaluationContext predicate.expression).map ofTruth := by
    intro predicate member row
    obtain ⟨typed, valid⟩ := reads predicate member
    exact evaluateExpression_verdict options.outputSchema batch conforms row
      filters.evaluationContext predicate.expression typed
      (boolean_of_validateRoot _ _ _ valid).1 (finds predicate member)
  refine ⟨sound, ?_⟩
  cases evaluated : filters.evaluate batch with
  | error fault =>
      obtain ⟨predicate, member, required, _, failed⟩ :=
        PushdownFilters.evaluateFrom_error _ _ _ _ fault evaluated
      exact ⟨predicate, member, required, failed⟩
  | ok mask =>
      obtain ⟨heard, isResult⟩ := PushdownFilters.evaluateFrom_ok _ _ _ _ _ evaluated
      refine ⟨?_, fun predicate member required => ?_, fun row within => ?_⟩
      · rw [isResult, PushdownFilters.length_foldl_narrowMask, List.length_replicate]
        intro column member
        obtain ⟨predicate, _, isHeard⟩ := List.mem_filterMap.mp member
        rw [List.length_replicate]
        have lengths := ((except_mapM_iff _ _ _).mp
          (PushdownFilters.judgement_some _ _ _ _ isHeard)).length_eq
        rw [← lengths, List.length_range]
      · have unskipped := (boolean_of_validateRoot _ _ _ (reads predicate member).2).2 required
        exact List.mem_filter.mpr ⟨member, heard predicate member required unskipped⟩
      · exact PushdownFilters.kept_iff_conjunction filters batch mask evaluated row within
          fun predicate member => sound predicate member row

/-! ## Samples -/

def flagDocument : Batch :=
  snapshotOf [objectText (flagMembers "p" "0" "required" "flag")]

def threeFlags : Batch where
  schema := flagOptions.outputSchema
  columns := [[.bool true, .bool false, .null]]
  numRows := 3
  metadata := none

private def isFirstColumn : FilterExpression → Bool
  | .columnRef index name _ => index == 0 && name == text "flag"
  | _ => false

private theorem payloadsConform_document (document : Text) :
    PayloadsConform (documentBatch document) := by
  intro index field column fieldAt _
  cases index with
  | zero =>
      cases fieldAt
      simp [Conforms]
  | succ index => cases fieldAt

private theorem batchConforms_threeFlags : BatchConforms flagOptions.outputSchema threeFlags where
  fields := rfl
  cells index field column fieldAt columnAt row := by
    cases index with
    | zero =>
        cases fieldAt
        cases columnAt
        rw [Conforms]
        match row with
        | 0 => exact .inr ⟨true, rfl⟩
        | 1 => exact .inr ⟨false, rfl⟩
        | 2 => exact .inl rfl
        | _ + 3 => exact .inl rfl
    | succ index => cases fieldAt

theorem filters_type_sound_flag : ∃ filters mask, Accepted flagOptions filters ∧
    filters.evaluate threeFlags = .ok mask ∧ mask = [true, false, false] ∧
    ∀ row < 3, ∃ truth, filters.conjunction threeFlags row = .ok truth ∧
      (mask[row]? = some true ↔ truth = some true) := by
  have run : (deserializeFilters flagDocument flagOptions).map
      (fun filters => ((filters.evaluate threeFlags).toOption,
        filters.predicates.all fun predicate => isFirstColumn predicate.expression)) =
      .ok (some [true, false, false], true) := by
    decide +kernel
  cases read : deserializeFilters flagDocument flagOptions with
  | error fault =>
      rw [read] at run
      cases run
  | ok filters =>
      rw [read] at run
      injection run with outcome
      injection outcome with masked columns
      have accepted : Accepted flagOptions filters :=
        .snapshot flagDocument filters (payloadsConform_document _) read
      have sound := filters_type_sound flagOptions filters accepted threeFlags batchConforms_threeFlags
        fun predicate member => by
          have isColumn := List.all_eq_true.mp columns predicate member
          cases expression : predicate.expression with
          | columnRef index name dataType =>
              rw [expression, isFirstColumn, Bool.and_eq_true, beq_iff_eq, beq_iff_eq] at isColumn
              rw [isColumn.1, isColumn.2, FindsByName]
              rfl
          | _ =>
              rw [expression] at isColumn
              cases isColumn
      cases evaluated : filters.evaluate threeFlags with
      | error fault =>
          rw [evaluated] at masked
          cases masked
      | ok mask =>
          rw [evaluated] at masked sound
          cases masked
          exact ⟨filters, _, accepted, evaluated, rfl, sound.2.2.2⟩

/-- `CAST(s AS BOOLEAN)`, as an advisory predicate. -/
def castDocument : Batch :=
  let spec := snapshotOf [objectText [memberText "id" (quotedText "p"),
    memberText "revision" (text "0"), memberText "mode" (quotedText "advisory"),
    memberText "source" (quotedText "query"),
    memberText "expression" (objectText [memberText "node" (quotedText "cast"),
      memberText "expression" (objectText [memberText "node" (quotedText "column_ref"),
        memberText "column_index" (text "0"), memberText "column_name" (quotedText "s")]),
      memberText "type_ref" (text "0")])]]
  { spec with
    schema := ⟨spec.schema.fields ++ [⟨text "type_0", .bool, true, .empty⟩], spec.schema.metadata⟩
    columns := spec.columns ++ [[.null]] }

def castOptions : DeserializeFilterOptions where
  outputSchema := ⟨[⟨text "s", .utf8, true, .empty⟩], .empty⟩

def castRows : Batch where
  schema := castOptions.outputSchema
  columns := [[.string (text "maybe")]]
  numRows := 1
  metadata := none

/-- A row is kept on which the only predicate throws. -/
theorem advisory_predicate_has_no_say : ∃ filters, Accepted castOptions filters ∧
    BatchConforms castOptions.outputSchema castRows ∧
    filters.evaluate castRows = .ok [true] ∧ filters.predicates.length = 1 ∧
    ∀ predicate ∈ filters.predicates, ∀ value,
      evaluateExpression castRows 0 filters.evaluationContext predicate.expression ≠ .ok value := by
  have run : (deserializeFilters castDocument castOptions).map
      (fun filters => ((filters.evaluate castRows).toOption, filters.predicates.length,
        filters.predicates.all fun predicate =>
          !(evaluateExpression castRows 0 filters.evaluationContext predicate.expression).isOk)) =
      .ok (some [true], 1, true) := by
    decide +kernel
  cases read : deserializeFilters castDocument castOptions with
  | error fault =>
      rw [read] at run
      cases run
  | ok filters =>
      rw [read] at run
      injection run with outcome
      injection outcome with masked rest
      injection rest with length throws
      refine ⟨filters, .snapshot castDocument filters ?_ read, ⟨rfl, ?_⟩, ?_, length, ?_⟩
      · intro index field column fieldAt columnAt
        match index with
        | 0 =>
            cases fieldAt
            simp [Conforms]
        | 1 =>
            cases fieldAt
            cases columnAt
            exact conforms_null _
        | index + 2 => cases fieldAt
      · intro index field column fieldAt _ row
        cases index with
        | zero =>
            cases fieldAt
            simp [Conforms]
        | succ index => cases fieldAt
      · cases evaluated : filters.evaluate castRows with
        | error fault =>
            rw [evaluated] at masked
            cases masked
        | ok mask =>
            rw [evaluated] at masked
            cases masked
            rfl
      · intro predicate member value evaluated
        have thrown := List.all_eq_true.mp throws predicate member
        rw [evaluated] at thrown
        cases thrown

end VgiWorker.FilterPushdown
