import VgiWorker.Data.Result
import VgiWorker.FilterPushdown.ColumnValues

/-!
# Filters as SQL text

How predicates and expressions are rendered for another database, and when no other expression
has the text of one.
-/

set_option autoImplicit false

namespace VgiWorker.FilterPushdown

open VgiWorker.Js VgiWorker.Arrow

mutual

def quote : Value → Text
  | .null => text "NULL"
  | .string value =>
      text "'" ++ (value.flatMap fun unit => if unit = 39 then [39, 39] else [unit]) ++ text "'"
  | .bytes value => text "X'" ++ value.flatMap hexByte ++ text "'"
  | .array elements => text "[" ++ joinText (text ", ") (quoteEach elements) ++ text "]"
  | value => value.toText

def quoteEach : List Value → List Text
  | [] => []
  | value :: rest => quote value :: quoteEach rest

end

def ComparisonOp.symbol : ComparisonOp → Text
  | .eq => text "="
  | .ne => text "!="
  | .lt => text "<"
  | .le => text "<="
  | .gt => text ">"
  | .ge => text ">="
  | .distinctFrom => text "IS DISTINCT FROM"
  | .notDistinctFrom => text "IS NOT DISTINCT FROM"

def ArithmeticOp.symbol : ArithmeticOp → Text
  | .add => text "+"
  | .subtract => text "-"
  | .multiply => text "*"
  | .divide => text "/"
  | .modulo => text "%"

def negation (negated : Bool) : Text :=
  if negated then text "NOT " else []

/-- The name a call is rendered with. -/
def FilterFunction.sqlName : FilterFunction → Text
  | .standard .startsWith => text "starts_with"
  | .standard .endsWith => text "ends_with"
  | .standard .contains => text "contains"
  | .standard .listContains => text "list_contains"
  | .extension identity => filterFunctionIdentityKey identity

mutual

def expressionToSql : FilterExpression → Text
  | .columnRef _ columnName _ => columnName
  | .fieldRef expression _ fieldName _ => expressionToSql expression ++ text "." ++ fieldName
  | .literal _ _ value => quote value
  | .comparison op left right =>
      expressionToSql left ++ text " " ++ op.symbol ++ text " " ++ expressionToSql right
  | .and children => text "(" ++ joinText (text " AND ") (predicatesToSql children) ++ text ")"
  | .or children => text "(" ++ joinText (text " OR ") (predicatesToSql children) ++ text ")"
  | .not expression => text "(NOT " ++ expressionToSql expression ++ text ")"
  | .isNull expression negated =>
      expressionToSql expression ++ text " IS " ++ negation negated ++ text "NULL"
  | .inSet expression set negated =>
      expressionToSql expression ++ text " " ++ negation negated ++ text "IN (" ++
        joinText (text ", ") (set.values.map quote) ++ text ")"
  | .cast expression typeRef _ =>
      text "CAST(" ++ expressionToSql expression ++ text " AS type_" ++ Number.decimal typeRef ++
        text ")"
  | .arithmetic op left right =>
      text "(" ++ expressionToSql left ++ text " " ++ op.symbol ++ text " " ++
        expressionToSql right ++ text ")"
  | .negate expression => text "(-" ++ expressionToSql expression ++ text ")"
  | .call function args _ =>
      function.sqlName ++ text "(" ++ joinText (text ", ") (expressionsToSql args) ++ text ")"
  | .runtimeFilter algorithm input _ _ _ _ _ =>
      filterFunctionIdentityKey algorithm ++ text "(" ++ expressionToSql input ++ text ")"

def expressionsToSql : List FilterExpression → List Text
  | [] => []
  | expression :: rest => expressionToSql expression :: expressionsToSql rest

/-- `children.map(predicateToSql)`. -/
def predicatesToSql : List FilterExpression → List Text
  | [] => []
  | expression :: rest =>
      (match booleanColumnLeaf expression with
        | some (columnName, value) => columnName ++ text " = " ++ quote (.bool value)
        | none => expressionToSql expression) :: predicatesToSql rest

end

/-- Render one predicate, a bare boolean column in its equality form. -/
def predicateToSql (expression : FilterExpression) : Text :=
  match booleanColumnLeaf expression with
  | some (columnName, value) => columnName ++ text " = " ++ quote (.bool value)
  | none => expressionToSql expression

def PushdownFilters.toSql (filters : PushdownFilters) : Text :=
  joinText (text " AND ") (filters.predicates.map fun predicate => predicateToSql predicate.expression)

/-! ## Ambiguity -/

/-- The texts that look like an expression other than a column. -/
inductive Spelled : Text → Prop where
  | literal (value : Value) : Spelled (quote value)
  | field (parent name : Text) : Spelled (parent ++ text "." ++ name)
  | comparison (op : ComparisonOp) (left right : Text) :
      Spelled (left ++ text " " ++ op.symbol ++ text " " ++ right)
  | parenthesised (content : Text) : Spelled (text "(" ++ content ++ text ")")
  | nullTest (content : Text) (negated : Bool) :
      Spelled (content ++ text " IS " ++ negation negated ++ text "NULL")
  | membership (content : Text) (values : List Value) (negated : Bool) :
      Spelled (content ++ text " " ++ negation negated ++ text "IN (" ++
        joinText (text ", ") (values.map quote) ++ text ")")
  | cast (content : Text) (typeRef : Nat) :
      Spelled (text "CAST(" ++ content ++ text " AS type_" ++ Number.decimal typeRef ++ text ")")
  | call (function : FilterFunction) (content : Text) :
      Spelled (function.sqlName ++ text "(" ++ content ++ text ")")

def SameEvaluation (first second : FilterExpression) : Prop :=
  ∀ batch row context, evaluateExpression batch row context first =
    evaluateExpression batch row context second

private def IsColumn (expression : FilterExpression) : Prop :=
  ∃ index name dataType, expression = .columnRef index name dataType

/-! ## The texts of expressions -/

private theorem spelled_or_column (expression : FilterExpression) :
    IsColumn expression ∨ Spelled (expressionToSql expression) := by
  cases expression with
  | columnRef index name dataType => exact .inl ⟨index, name, dataType, rfl⟩
  | fieldRef parent _ name _ => exact .inr (.field (expressionToSql parent) name)
  | literal _ _ value => exact .inr (.literal value)
  | comparison op left right =>
      exact .inr (.comparison op (expressionToSql left) (expressionToSql right))
  | and children => exact .inr (.parenthesised _)
  | or children => exact .inr (.parenthesised _)
  | not inner => exact .inr (.parenthesised (text "NOT " ++ expressionToSql inner))
  | isNull inner negated => exact .inr (.nullTest (expressionToSql inner) negated)
  | inSet inner set negated => exact .inr (.membership (expressionToSql inner) set.values negated)
  | cast inner typeRef _ => exact .inr (.cast (expressionToSql inner) typeRef)
  | arithmetic op left right =>
      refine .inr ?_
      have spelled := Spelled.parenthesised (expressionToSql left ++ text " " ++ op.symbol ++
        text " " ++ expressionToSql right)
      simpa only [expressionToSql, List.append_assoc] using spelled
  | negate inner => exact .inr (.parenthesised (text "-" ++ expressionToSql inner))
  | call function args _ => exact .inr (.call function _)
  | runtimeFilter algorithm input _ _ _ _ _ =>
      exact .inr (.call (.extension algorithm) (expressionToSql input))

/-- A column of any name, as a stand-in for whatever the name looks like. -/
private def standIn (name : Text) : FilterExpression :=
  .columnRef 0 name none

private theorem exists_of_spelled (spelling : Text) (spelled : Spelled spelling) :
    ∃ expression, ¬ IsColumn expression ∧ expressionToSql expression = spelling ∧
      predicateToSql expression = spelling := by
  cases spelled with
  | literal value => exact ⟨.literal 0 ⟨[], .null, true, .empty⟩ value, nofun, rfl, rfl⟩
  | field parent name => exact ⟨.fieldRef (standIn parent) 0 name .null, nofun, rfl, rfl⟩
  | comparison op left right =>
      exact ⟨.comparison op (standIn left) (standIn right), nofun, rfl, rfl⟩
  | parenthesised content => exact ⟨.and [standIn content], nofun, rfl, rfl⟩
  | nullTest content negated => exact ⟨.isNull (standIn content) negated, nofun, rfl, rfl⟩
  | membership content values negated =>
      exact ⟨.inSet (standIn content) (.literal 0 ⟨[], .null, true, .empty⟩ values) negated, nofun,
        rfl, rfl⟩
  | cast content typeRef =>
      exact ⟨.cast (standIn content) typeRef ⟨[], .null, true, .empty⟩, nofun, rfl, rfl⟩
  | call function content => exact ⟨.call function [standIn content] none, nofun, rfl, rfl⟩

/-! ## The columns of an expression -/

private theorem length_le_joinText (separator part : Text) (parts : List Text)
    (member : part ∈ parts) : part.length ≤ (joinText separator parts).length := by
  induction parts with
  | nil => cases member
  | cons first rest ih =>
      cases rest with
      | nil =>
          rw [List.mem_singleton.mp member]
          exact le_refl _
      | cons second rest =>
          rw [joinText, List.length_append, List.length_append]
          · rcases List.mem_cons.mp member with rfl | member
            · omega
            · have later := ih member
              omega
          · exact nofun

/-- The columns of an expression have names shorter than the bound. -/
private def Shorter (bound : Nat) (references : List (Text × Option DataType)) : Prop :=
  ∀ reference ∈ references, reference.1.length < bound

private theorem shorter_mono (bound longer : Nat) (references : List (Text × Option DataType))
    (shorter : Shorter bound references) (le : bound ≤ longer) : Shorter longer references :=
  fun reference member => lt_of_lt_of_le (shorter reference member) le

private theorem shorter_append (bound : Nat) (left right : List (Text × Option DataType))
    (isLeft : Shorter bound left) (isRight : Shorter bound right) : Shorter bound (left ++ right) :=
  fun reference member => (List.mem_append.mp member).elim (isLeft reference) (isRight reference)

/-- A text of which the expression's text is a proper part, and so longer than its columns. -/
private theorem shorter_of_part (expression : FilterExpression) (longer : Nat)
    (names : IsColumn expression ∨
      Shorter (expressionToSql expression).length expression.columnTypes)
    (lt : (expressionToSql expression).length < longer) : Shorter longer expression.columnTypes := by
  rcases names with ⟨index, name, dataType, rfl⟩ | shorter
  · intro reference member
    rw [List.mem_singleton.mp member]
    exact lt
  · exact shorter_mono _ _ _ shorter (le_of_lt lt)

private theorem leaf_columnTypes (expression : FilterExpression) (name : Text) (value : Bool)
    (leaf : booleanColumnLeaf expression = some (name, value)) :
    ∃ dataType, expression.columnTypes = [(name, dataType)] := by
  unfold booleanColumnLeaf at leaf
  split at leaf
  · split at leaf
    · cases leaf
      exact ⟨_, rfl⟩
    · cases leaf
  · split at leaf
    · cases leaf
      exact ⟨_, rfl⟩
    · cases leaf
  · cases leaf

private theorem shorter_of_predicate (expression : FilterExpression) (longer : Nat)
    (names : IsColumn expression ∨
      Shorter (expressionToSql expression).length expression.columnTypes)
    (lt : (predicateToSql expression).length < longer) : Shorter longer expression.columnTypes := by
  unfold predicateToSql at lt
  split at lt
  · rename_i name value leaf
    obtain ⟨dataType, types⟩ := leaf_columnTypes expression name value leaf
    rw [List.length_append, List.length_append] at lt
    rw [types]
    intro reference member
    rw [List.mem_singleton.mp member]
    dsimp only
    omega
  · exact shorter_of_part expression longer names lt

/-- Joined parts within a text that is longer than they are. -/
private theorem length_lt_of_part (separator part : Text) (parts : List Text) (longer : Nat)
    (member : part ∈ parts) (lt : (joinText separator parts).length < longer) :
    part.length < longer :=
  lt_of_le_of_lt (length_le_joinText separator part parts member) lt

mutual

private theorem names_shorter (expression : FilterExpression) :
    IsColumn expression ∨ Shorter (expressionToSql expression).length expression.columnTypes := by
  have dot : 0 < (text ".").length := by decide
  have space : 0 < (text " ").length := by decide
  have opening : 0 < (text "(").length := by decide
  have closing : 0 < (text ")").length := by decide
  have null : 0 < (text "NULL").length := by decide
  cases expression with
  | columnRef index name dataType => exact .inl ⟨index, name, dataType, rfl⟩
  | literal => exact .inr nofun
  | fieldRef inner | not inner | isNull inner | inSet inner | cast inner | negate inner
  | runtimeFilter _ inner =>
      refine .inr (shorter_of_part inner _ (names_shorter inner) ?_)
      simp only [expressionToSql, List.length_append]
      omega
  | comparison op left right | arithmetic op left right =>
      refine .inr (shorter_append _ _ _ (shorter_of_part left _ (names_shorter left) ?_)
        (shorter_of_part right _ (names_shorter right) ?_))
      · simp only [expressionToSql, List.length_append]
        omega
      · simp only [expressionToSql, List.length_append]
        omega
  | and children =>
      refine .inr ((each_shorter children _).2 fun part member =>
        length_lt_of_part (text " AND ") part _ _ member ?_)
      simp only [expressionToSql, List.length_append]
      omega
  | or children =>
      refine .inr ((each_shorter children _).2 fun part member =>
        length_lt_of_part (text " OR ") part _ _ member ?_)
      simp only [expressionToSql, List.length_append]
      omega
  | call function args _ =>
      refine .inr ((each_shorter args _).1 fun part member =>
        length_lt_of_part (text ", ") part _ _ member ?_)
      simp only [expressionToSql, List.length_append]
      omega

private theorem each_shorter (expressions : List FilterExpression) (longer : Nat) :
    ((∀ part ∈ expressionsToSql expressions, part.length < longer) →
      Shorter longer (FilterExpression.allColumnTypes expressions)) ∧
    ((∀ part ∈ predicatesToSql expressions, part.length < longer) →
      Shorter longer (FilterExpression.allColumnTypes expressions)) := by
  cases expressions with
  | nil => exact ⟨fun _ => nofun, fun _ => nofun⟩
  | cons expression rest =>
      refine ⟨fun parts => ?_, fun parts => ?_⟩
      · rw [expressionsToSql, List.forall_mem_cons] at parts
        exact shorter_append _ _ _
          (shorter_of_part expression longer (names_shorter expression) parts.1)
          ((each_shorter rest longer).1 parts.2)
      · rw [predicatesToSql, List.forall_mem_cons] at parts
        exact shorter_append _ _ _
          (shorter_of_predicate expression longer (names_shorter expression) parts.1)
          ((each_shorter rest longer).2 parts.2)

end

/-! ## Evaluation away from a column -/

mutual

/-- Batches that agree on the columns of an expression give it one value. -/
private theorem evaluate_congr (batch other : Batch) (row : Nat) (context : EvaluationContext)
    (expression : FilterExpression)
    (agree : ∀ reference ∈ expression.columnTypes,
      evaluateExpression batch row context (standIn reference.1) =
        evaluateExpression other row context (standIn reference.1)) :
    evaluateExpression batch row context expression =
      evaluateExpression other row context expression := by
  cases expression with
  | columnRef index name dataType => exact agree (name, dataType) List.mem_cons_self
  | literal => rfl
  | fieldRef inner | not inner | isNull inner | inSet inner | cast inner | negate inner =>
      rw [evaluateExpression, evaluateExpression, evaluate_congr batch other row context inner agree]
  | comparison op left right | arithmetic op left right =>
      rw [evaluateExpression, evaluateExpression,
        evaluate_congr batch other row context left fun reference member =>
          agree reference (List.mem_append_left _ member),
        evaluate_congr batch other row context right fun reference member =>
          agree reference (List.mem_append_right _ member)]
  | and children | or children | call function children =>
      rw [evaluateExpression, evaluateExpression,
        evaluateEach_congr batch other row context children agree]
  | runtimeFilter => rfl

private theorem evaluateEach_congr (batch other : Batch) (row : Nat) (context : EvaluationContext)
    (expressions : List FilterExpression)
    (agree : ∀ reference ∈ FilterExpression.allColumnTypes expressions,
      evaluateExpression batch row context (standIn reference.1) =
        evaluateExpression other row context (standIn reference.1)) :
    evaluateEach batch row context expressions = evaluateEach other row context expressions := by
  cases expressions with
  | nil => rfl
  | cons expression rest =>
      rw [evaluateEach, evaluateEach,
        evaluate_congr batch other row context expression fun reference member =>
          agree reference (List.mem_append_left _ member),
        evaluateEach_congr batch other row context rest fun reference member =>
          agree reference (List.mem_append_right _ member)]

end

/-- One row of a single Boolean column. -/
private def singleColumn (name : Text) (value : Bool) : Batch :=
  ⟨⟨[⟨name, .bool, true, .empty⟩], .empty⟩, [[.bool value]], 1, none⟩

private theorem singleColumn_here (name : Text) (value : Bool) (context : EvaluationContext) :
    evaluateExpression (singleColumn name value) 0 context (standIn name) = .ok (.bool value) := by
  simp [standIn, evaluateExpression, resolveColumn, singleColumn, Batch.getChildAt,
    readCanonicalValue]

private theorem singleColumn_other (name other : Text) (value : Bool) (context : EvaluationContext)
    (differs : other ≠ name) :
    evaluateExpression (singleColumn name value) 0 context (standIn other) =
      throwV2 (text "filter column " ++ other ++ text " is unavailable in emitted batch") := by
  simp [standIn, evaluateExpression, resolveColumn, singleColumn, differs.symm, throwV2]

/-- An expression whose columns have other names is not the column. -/
private theorem not_same_column (expression : FilterExpression) (name : Text)
    (shorter : Shorter name.length expression.columnTypes) :
    ¬ SameEvaluation (standIn name) expression := by
  intro same
  have context : EvaluationContext := ⟨[], none, none, none, none, none, none⟩
  have constant : evaluateExpression (singleColumn name true) 0 context expression =
      evaluateExpression (singleColumn name false) 0 context expression := by
    refine evaluate_congr _ _ 0 context expression fun reference member => ?_
    have differs : reference.1 ≠ name := by
      intro isName
      have lt := shorter reference member
      rw [isName] at lt
      exact lt_irrefl _ lt
    rw [singleColumn_other _ _ _ context differs, singleColumn_other _ _ _ context differs]
  rw [← same, ← same, singleColumn_here, singleColumn_here] at constant
  cases constant

private theorem same_of_column (index : Nat) (name : Text) (dataType : Option DataType)
    (other : FilterExpression) (isColumn : IsColumn other) (same : expressionToSql other = name) :
    SameEvaluation other (.columnRef index name dataType) := by
  obtain ⟨_, _, _, rfl⟩ := isColumn
  subst same
  exact fun batch row context => rfl

private theorem predicateToSql_column (index : Nat) (name : Text) (dataType : Option DataType)
    (notBool : dataType.any DataType.isBool = false) :
    predicateToSql (.columnRef index name dataType) = name := by
  have noLeaf : booleanColumnLeaf (.columnRef index name dataType) = none := by
    rw [booleanColumnLeaf, notBool]
    rfl
  rw [predicateToSql, noLeaf]
  rfl

private theorem predicate_shorter (expression : FilterExpression) :
    (∃ index name dataType, expression = .columnRef index name dataType ∧
      dataType.any DataType.isBool = false) ∨
    Shorter (predicateToSql expression).length expression.columnTypes := by
  have space : 0 < (text " = ").length := by decide
  cases leaf : booleanColumnLeaf expression with
  | some held =>
      obtain ⟨name, value⟩ := held
      obtain ⟨dataType, types⟩ := leaf_columnTypes expression name value leaf
      rw [types, predicateToSql, leaf]
      refine .inr fun reference member => ?_
      rw [List.mem_singleton.mp member]
      simp only [List.length_append]
      omega
  | none =>
      have isText : predicateToSql expression = expressionToSql expression := by
        rw [predicateToSql, leaf]
      rw [isText]
      rcases names_shorter expression with ⟨index, name, dataType, rfl⟩ | shorter
      · refine .inl ⟨index, name, dataType, rfl, ?_⟩
        rw [booleanColumnLeaf] at leaf
        split at leaf
        · cases leaf
        · rename_i notBool
          exact Bool.eq_false_iff.mpr notBool
      · exact .inr shorter

private theorem predicate_spelled_or_column (expression : FilterExpression) :
    (IsColumn expression ∧ predicateToSql expression = expressionToSql expression) ∨
      Spelled (predicateToSql expression) := by
  cases leaf : booleanColumnLeaf expression with
  | some held =>
      obtain ⟨name, value⟩ := held
      have isText : predicateToSql expression = name ++ text " = " ++ quote (.bool value) := by
        rw [predicateToSql, leaf]
      have spaced : text " = " = text " " ++ ComparisonOp.eq.symbol ++ text " " := rfl
      have spelled := Spelled.comparison .eq name (quote (.bool value))
      rw [isText, spaced]
      simp only [List.append_assoc] at spelled ⊢
      exact .inr spelled
  | none =>
      have isText : predicateToSql expression = expressionToSql expression := by
        rw [predicateToSql, leaf]
      rw [isText]
      exact (spelled_or_column expression).imp_left fun isColumn => ⟨isColumn, rfl⟩

/-- A column whose name looks like another expression is not that expression. -/
private theorem not_same_spelled (index : Nat) (name : Text) (dataType : Option DataType)
    (expression : FilterExpression) (notColumn : ¬ IsColumn expression)
    (isText : expressionToSql expression = name) :
    ¬ SameEvaluation expression (.columnRef index name dataType) := by
  intro same
  have shorter := (names_shorter expression).resolve_left notColumn
  rw [isText] at shorter
  exact not_same_column expression name shorter fun batch row context =>
    (same batch row context).symm

/-- A text is that of one meaning exactly when it is the name of a column and looks like nothing
else. As a predicate a BOOLEAN column is itself rendered as a comparison. -/
theorem rendering_unambiguous_iff (expression : FilterExpression) :
    ((∀ other, expressionToSql other = expressionToSql expression →
        SameEvaluation other expression) ↔
      ∃ index name dataType, expression = .columnRef index name dataType ∧ ¬ Spelled name) ∧
    ((∀ other, predicateToSql other = predicateToSql expression →
        SameEvaluation other expression) ↔
      ∃ index name dataType, expression = .columnRef index name dataType ∧
        dataType.any DataType.isBool = false ∧ ¬ Spelled name) := by
  refine ⟨⟨fun unambiguous => ?_, ?_⟩, ⟨fun unambiguous => ?_, ?_⟩⟩
  · rcases names_shorter expression with ⟨index, name, dataType, rfl⟩ | shorter
    · refine ⟨index, name, dataType, rfl, fun spelled => ?_⟩
      obtain ⟨other, notColumn, isText, _⟩ := exists_of_spelled name spelled
      exact not_same_spelled index name dataType other notColumn isText (unambiguous other isText)
    · exact absurd (unambiguous (standIn (expressionToSql expression)) rfl)
        (not_same_column expression _ shorter)
  · rintro ⟨index, name, dataType, rfl, notSpelled⟩ other same
    rcases spelled_or_column other with isColumn | spelled
    · exact same_of_column index name dataType other isColumn same
    · rw [same] at spelled
      exact absurd spelled notSpelled
  · rcases predicate_shorter expression with ⟨index, name, dataType, rfl, notBool⟩ | shorter
    · refine ⟨index, name, dataType, rfl, notBool, fun spelled => ?_⟩
      obtain ⟨other, notColumn, isText, isPredicate⟩ := exists_of_spelled name spelled
      rw [predicateToSql_column index name dataType notBool] at unambiguous
      exact not_same_spelled index name dataType other notColumn isText
        (unambiguous other isPredicate)
    · exact absurd (unambiguous (standIn (predicateToSql expression)) rfl)
        (not_same_column expression _ shorter)
  · rintro ⟨index, name, dataType, rfl, notBool, notSpelled⟩ other same
    rw [predicateToSql_column index name dataType notBool] at same
    rcases predicate_spelled_or_column other with ⟨isColumn, isText⟩ | spelled
    · rw [isText] at same
      exact same_of_column index name dataType other isColumn same
    · rw [same] at spelled
      exact absurd spelled notSpelled

private theorem compare_falses : compare (.bool false) (.bool false) .eq = .bool true := by
  simp [FilterPushdown.compare, isNullValue, orderedCompare, deepEqual, Value.strictEq]

/-- `(a = b) IS NULL` and `a = (b IS NULL)` are one text. -/
theorem grouping_lost :
    ∃ (first second : FilterExpression) (batch : Batch) (context : EvaluationContext),
      predicateToSql first = predicateToSql second ∧
        evaluateExpression batch 0 context first = .ok (.bool false) ∧
        evaluateExpression batch 0 context second = .ok (.bool true) := by
  refine ⟨.isNull (.comparison .eq (.columnRef 0 (text "a") (some .bool))
      (.columnRef 1 (text "b") (some .bool))) false,
    .comparison .eq (.columnRef 0 (text "a") (some .bool))
      (.isNull (.columnRef 1 (text "b") (some .bool)) false),
    ⟨⟨[⟨text "a", .bool, true, .empty⟩, ⟨text "b", .bool, true, .empty⟩], .empty⟩,
      [[.bool false], [.bool true]], 1, none⟩,
    ⟨[], none, none, none, none, none, none⟩, rfl, rfl, ?_⟩
  rw [← compare_falses]
  rfl

end VgiWorker.FilterPushdown
