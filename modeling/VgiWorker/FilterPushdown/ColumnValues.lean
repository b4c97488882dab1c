import VgiWorker.FilterPushdown.DeepEquality
import VgiWorker.FilterPushdown.Replay

/-!
# The values a filter leaves a column

`getColumnValues` reads the constants a filter pins a column to off its
predicates. No row that passes has another value there.
-/

set_option autoImplicit false

namespace VgiWorker.FilterPushdown

open VgiWorker.Js VgiWorker.Arrow

/-- A BOOLEAN column as a predicate, and the constant it compares equal to. -/
def booleanColumnLeaf : FilterExpression → Option (Text × Bool)
  | .not (.columnRef _ name dataType) =>
      if dataType.any DataType.isBool then some (name, false) else none
  | .columnRef _ name dataType =>
      if dataType.any DataType.isBool then some (name, true) else none
  | _ => none

/-- An equality between the column and a literal. -/
def equalityValue (columnName : Text) : FilterExpression → FilterExpression → Option Value
  | .columnRef _ name _, .literal _ _ value => if name = columnName then some value else none
  | .literal _ _ value, .columnRef _ name _ => if name = columnName then some value else none
  | _, _ => none

def addValue (result : List Value) (value : Value) : List Value :=
  if result.any fun known => deepEqual known value then result else result ++ [value]

/-- The branches' values, each once. -/
def unionValues (branches : List (List Value)) : List Value :=
  branches.flatten.foldl addValue []

section

variable (columnName : Text)

def leafValues (expression : FilterExpression) : Option (List Value) :=
  match booleanColumnLeaf expression with
  | some (name, value) => if name = columnName then some [.bool value] else none
  | none => none

mutual

def discreteValues : FilterExpression → Option (List Value)
  | .columnRef index name dataType => leafValues columnName (.columnRef index name dataType)
  | .not expression => leafValues columnName (.not expression)
  | .comparison op left right =>
      if op = .eq then (equalityValue columnName left right).map fun value => [value] else none
  | .inSet (.columnRef _ name _) set negated =>
      if name = columnName ∧ negated = false then some set.values else none
  | .and children => firstValues children
  | .or children => (branchValues children).map unionValues
  | _ => none

/-- The values of the first child that has any. -/
def firstValues : List FilterExpression → Option (List Value)
  | [] => none
  | child :: rest =>
      match discreteValues child with
      | some values => some values
      | none => firstValues rest

/-- The values of every child, when every one has some. -/
def branchValues : List FilterExpression → Option (List (List Value))
  | [] => some []
  | child :: rest =>
      match discreteValues child, branchValues rest with
      | some values, some others => some (values :: others)
      | _, _ => none

end

def PushdownFilters.getColumnValues (filters : PushdownFilters) : Option (List Value) :=
  filters.predicates.findSome? fun predicate => discreteValues columnName predicate.expression

end

/-! ## The rows of a scan -/

mutual

/-- The columns an expression names, with the types it was bound to. -/
def FilterExpression.columnTypes : FilterExpression → List (Text × Option DataType)
  | .columnRef _ name dataType => [(name, dataType)]
  | .literal _ _ _ => []
  | .fieldRef expression _ _ _ | .not expression | .isNull expression _ | .cast expression _ _
  | .negate expression | .inSet expression _ _ => expression.columnTypes
  | .comparison _ left right | .arithmetic _ left right => left.columnTypes ++ right.columnTypes
  | .and children | .or children | .call _ children _ => FilterExpression.allColumnTypes children
  | .runtimeFilter _ input _ _ _ _ _ => input.columnTypes

def FilterExpression.allColumnTypes : List FilterExpression → List (Text × Option DataType)
  | [] => []
  | expression :: rest => expression.columnTypes ++ FilterExpression.allColumnTypes rest

end

mutual

/-- The constants of an expression. -/
def FilterExpression.constants : FilterExpression → List Value
  | .columnRef _ _ _ => []
  | .literal _ _ value => [value]
  | .fieldRef expression _ _ _ | .not expression | .isNull expression _ | .cast expression _ _
  | .negate expression => expression.constants
  | .inSet expression set _ => set.values ++ expression.constants
  | .comparison _ left right | .arithmetic _ left right => left.constants ++ right.constants
  | .and children | .or children | .call _ children _ => FilterExpression.allConstants children
  | .runtimeFilter _ input _ _ artifact _ _ => artifact :: input.constants

def FilterExpression.allConstants : List FilterExpression → List Value
  | [] => []
  | expression :: rest => expression.constants ++ FilterExpression.allConstants rest

end

/-- A batch whose columns have the types an expression was bound to, where it has any. -/
structure BoundTo (batch : Batch) (expression : FilterExpression) : Prop where
  types : ∀ reference ∈ expression.columnTypes, ∀ index field,
    batch.schema.fields.findIdx? (·.name == reference.1) = some index →
      batch.schema.fields[index]? = some field → ∀ dataType ∈ reference.2, dataType = field.type
  distinct : ∀ value ∈ expression.constants, NamesDistinct value

/-- A batch as the Arrow library reads it: BOOLEAN cells are Booleans or null, and an object names
each member once. -/
structure ReadBatch (batch : Batch) : Prop where
  booleans : ∀ (index : Nat) (field : Field) (column : Column),
    batch.schema.fields[index]? = some field → field.type.isBool = true →
      batch.getChildAt index = some column →
        ∀ cell ∈ column, cell = .null ∨ ∃ value, cell = .bool value
  distinct : ∀ (index : Nat) (column : Column), batch.getChildAt index = some column →
    ∀ cell ∈ column, NamesDistinct cell

/-! ## What a part inherits -/

section

variable {batch : Batch}

private theorem boundTo_part (whole part : FilterExpression) (bound : BoundTo batch whole)
    (types : part.columnTypes ⊆ whole.columnTypes) (constants : part.constants ⊆ whole.constants) :
    BoundTo batch part :=
  ⟨fun reference member => bound.types reference (types member),
    fun value member => bound.distinct value (constants member)⟩

private theorem columnTypes_child (children : List FilterExpression) (child : FilterExpression)
    (member : child ∈ children) :
    child.columnTypes ⊆ FilterExpression.allColumnTypes children ∧
      child.constants ⊆ FilterExpression.allConstants children := by
  induction children with
  | nil => cases member
  | cons first rest ih =>
      rw [FilterExpression.allColumnTypes, FilterExpression.allConstants]
      cases member with
      | head => exact ⟨List.subset_append_left _ _, List.subset_append_left _ _⟩
      | tail _ member =>
          obtain ⟨types, constants⟩ := ih member
          exact ⟨List.subset_append_of_subset_right _ types,
            List.subset_append_of_subset_right _ constants⟩

private theorem boundTo_conjunct (children : List FilterExpression)
    (bound : BoundTo batch (.and children)) (child : FilterExpression)
    (member : child ∈ children) : BoundTo batch child := by
  obtain ⟨types, constants⟩ := columnTypes_child children child member
  exact boundTo_part _ child bound (by rwa [FilterExpression.columnTypes])
    (by rwa [FilterExpression.constants])

private theorem boundTo_disjunct (children : List FilterExpression)
    (bound : BoundTo batch (.or children)) (child : FilterExpression)
    (member : child ∈ children) : BoundTo batch child := by
  obtain ⟨types, constants⟩ := columnTypes_child children child member
  exact boundTo_part _ child bound (by rwa [FilterExpression.columnTypes])
    (by rwa [FilterExpression.constants])

end

/-! ## Unions -/

section

variable (branches : List (List Value))

private theorem foldl_union (values result : List Value) :
    (∀ value ∈ result, value ∈ values.foldl addValue result) ∧
      (∀ value ∈ values, ∃ known ∈ values.foldl addValue result,
        known = value ∨ deepEqual known value = true) ∧
      ∀ value ∈ values.foldl addValue result, value ∈ result ∨ value ∈ values := by
  induction values generalizing result with
  | nil => exact ⟨fun _ member => member, fun _ member => absurd member List.not_mem_nil,
      fun _ member => .inl member⟩
  | cons first rest ih =>
      rw [List.foldl_cons, addValue]
      by_cases isKnown : (result.any fun known => deepEqual known first) = true
      · rw [if_pos isKnown]
        obtain ⟨kept, covered, within⟩ := ih result
        refine ⟨kept, fun value member => ?_, fun value member => ?_⟩
        · cases member with
          | head =>
              obtain ⟨known, inResult, equal⟩ := List.any_eq_true.mp isKnown
              exact ⟨known, kept known inResult, .inr equal⟩
          | tail _ member => exact covered value member
        · exact (within value member).imp_right (List.mem_cons_of_mem _)
      · rw [if_neg isKnown]
        obtain ⟨kept, covered, within⟩ := ih (result ++ [first])
        refine ⟨fun value member => kept value (List.mem_append_left _ member),
          fun value member => ?_, fun value member => ?_⟩
        · cases member with
          | head => exact ⟨first, kept first (List.mem_append_right _ List.mem_cons_self), .inl rfl⟩
          | tail _ member => exact covered value member
        · rcases within value member with earlier | later
          · rcases List.mem_append.mp earlier with earlier | isFirst
            · exact .inl earlier
            · exact .inr (List.mem_singleton.mp isFirst ▸ List.mem_cons_self)
          · exact .inr (List.mem_cons_of_mem _ later)

/-- The union loses no value of a branch. -/
theorem unionValues_covers (branch : List Value) (member : branch ∈ branches) (value : Value)
    (inBranch : value ∈ branch) :
    ∃ known ∈ unionValues branches, known = value ∨ deepEqual known value = true :=
  (foldl_union branches.flatten []).2.1 value (List.mem_flatten_of_mem member inBranch)

theorem mem_unionValues (value : Value) (member : value ∈ unionValues branches) :
    ∃ branch ∈ branches, value ∈ branch := by
  rcases (foldl_union branches.flatten []).2.2 value member with nothing | member
  · cases nothing
  · exact List.mem_flatten.mp member

end

/-! ## Constants -/

section

variable {batch : Batch} (columnName : Text)

private theorem leafValues_distinct (expression : FilterExpression) (values : List Value)
    (known : leafValues columnName expression = some values) :
    ∀ value ∈ values, NamesDistinct value := by
  unfold leafValues at known
  split at known
  · split at known
    · cases known
      intro value member
      rw [List.mem_singleton.mp member]
      trivial
    · cases known
  · cases known

private theorem equalityValue_constant (left right : FilterExpression) (value : Value)
    (known : equalityValue columnName left right = some value) :
    value ∈ left.constants ++ right.constants := by
  unfold equalityValue at known
  split at known
  · split at known
    · cases known
      simp [FilterExpression.constants]
    · cases known
  · split at known
    · cases known
      simp [FilterExpression.constants]
    · cases known
  · cases known

mutual

theorem discreteValues_distinct (expression : FilterExpression) (values : List Value)
    (bound : BoundTo batch expression)
    (known : discreteValues columnName expression = some values) :
    ∀ value ∈ values, NamesDistinct value := by
  cases expression with
  | columnRef index name dataType =>
      rw [discreteValues] at known
      exact leafValues_distinct columnName _ values known
  | not expression =>
      rw [discreteValues] at known
      exact leafValues_distinct columnName _ values known
  | comparison op left right =>
      rw [discreteValues] at known
      split at known
      · obtain ⟨constant, isConstant, rfl⟩ := Option.map_eq_some_iff.mp known
        intro value member
        rw [List.mem_singleton.mp member]
        refine bound.distinct constant ?_
        rw [FilterExpression.constants]
        exact equalityValue_constant columnName left right constant isConstant
      · cases known
  | inSet expression set negated =>
      cases expression with
      | columnRef index name dataType =>
          rw [discreteValues] at known
          split at known
          · cases known
            intro value member
            refine bound.distinct value ?_
            rw [FilterExpression.constants]
            exact List.mem_append_left _ member
          · cases known
      | _ =>
          rw [discreteValues] at known
          · cases known
          all_goals nofun
  | and children =>
      rw [discreteValues] at known
      exact firstValues_distinct children values (boundTo_conjunct children bound) known
  | or children =>
      rw [discreteValues] at known
      obtain ⟨branches, areBranches, rfl⟩ := Option.map_eq_some_iff.mp known
      intro value member
      obtain ⟨branch, inBranches, inBranch⟩ := mem_unionValues branches value member
      exact branchValues_distinct children branches (boundTo_disjunct children bound) areBranches
        branch inBranches value inBranch
  | _ =>
      rw [discreteValues] at known
      · cases known
      all_goals nofun

theorem firstValues_distinct (children : List FilterExpression) (values : List Value)
    (bound : ∀ child ∈ children, BoundTo batch child)
    (known : firstValues columnName children = some values) :
    ∀ value ∈ values, NamesDistinct value := by
  cases children with
  | nil => cases known
  | cons child rest =>
      rw [firstValues] at known
      split at known
      · rename_i found isFound
        cases known
        exact discreteValues_distinct child values (bound child List.mem_cons_self) isFound
      · exact firstValues_distinct rest values
          (fun other member => bound other (List.mem_cons_of_mem _ member)) known

theorem branchValues_distinct (children : List FilterExpression) (branches : List (List Value))
    (bound : ∀ child ∈ children, BoundTo batch child)
    (known : branchValues columnName children = some branches) :
    ∀ branch ∈ branches, ∀ value ∈ branch, NamesDistinct value := by
  cases children with
  | nil =>
      cases known
      exact fun _ member => absurd member List.not_mem_nil
  | cons child rest =>
      rw [branchValues] at known
      split at known
      · rename_i values others isValues areOthers
        cases known
        intro branch member
        cases member with
        | head =>
            exact discreteValues_distinct child values (bound child List.mem_cons_self) isValues
        | tail _ member =>
            exact branchValues_distinct rest others
              (fun other member => bound other (List.mem_cons_of_mem _ member)) areOthers branch
              member
      · cases known

end

end

/-! ## Passing rows -/

section

variable (batch : Batch) (row : Nat) (columnName : Text)

/-- The row has one of the values in the column. -/
def HasValue (values : List Value) : Prop :=
  ∃ column, resolveColumn batch columnName = .ok (some column) ∧
    ∃ value ∈ values, deepEqual (readCanonicalValue column row) value = true

/-- Neither FALSE nor NULL: what every part of a TRUE conjunction is. -/
def NotRejected (value : Value) : Prop :=
  isFalseValue value = false ∧ isNullValue value = false

variable {batch row columnName}

private theorem resolveColumn_at (column : Column)
    (resolved : resolveColumn batch columnName = .ok (some column)) :
    ∃ index field, batch.schema.fields.findIdx? (·.name == columnName) = some index ∧
      batch.schema.fields[index]? = some field ∧ batch.getChildAt index = some column := by
  unfold resolveColumn at resolved
  split at resolved
  · rename_i index found
    injection resolved with child
    obtain ⟨inRange, _⟩ := List.findIdx?_eq_some_iff_getElem.mp found
    exact ⟨index, batch.schema.fields[index], found, List.getElem?_eq_getElem inRange, child⟩
  · cases resolved

private theorem cell_mem (column : Column) (notNull : readCanonicalValue column row ≠ .null) :
    readCanonicalValue column row ∈ column := by
  unfold readCanonicalValue at notNull ⊢
  cases found : column[row]? with
  | none =>
      rw [found] at notNull
      exact absurd rfl notNull
  | some cell => exact List.mem_of_getElem? found

private theorem cell_distinct (read : ReadBatch batch) (column : Column)
    (resolved : resolveColumn batch columnName = .ok (some column)) :
    NamesDistinct (readCanonicalValue column row) := by
  obtain ⟨index, _, _, _, child⟩ := resolveColumn_at column resolved
  by_cases isNull : readCanonicalValue column row = .null
  · rw [isNull]
    trivial
  · exact read.distinct index column child _ (cell_mem column isNull)

private theorem ne_null_of_notRejected (value : Value) (notRejected : NotRejected value) :
    value ≠ .null := by
  rintro rfl
  cases notRejected.2

variable {context : EvaluationContext}

private theorem columnRef_cell (index : Nat) (name : Text) (dataType : Option DataType)
    (value : Value)
    (evaluated : evaluateExpression batch row context (.columnRef index name dataType) = .ok value)
    (notNull : value ≠ .null) :
    ∃ column, resolveColumn batch name = .ok (some column) ∧
      value = readCanonicalValue column row := by
  rw [evaluateExpression] at evaluated
  obtain ⟨resolved, isResolved, evaluated⟩ := except_bind_ok _ _ _ evaluated
  cases resolved with
  | none =>
      cases evaluated
      exact absurd rfl notNull
  | some column =>
      cases evaluated
      exact ⟨column, isResolved, rfl⟩

/-- A cell of a column bound as BOOLEAN. -/
private theorem boolean_cell (read : ReadBatch batch) (index : Nat) (name : Text)
    (dataType : Option DataType) (bound : BoundTo batch (.columnRef index name dataType))
    (isBool : dataType.any DataType.isBool = true) (column : Column)
    (resolved : resolveColumn batch name = .ok (some column))
    (notNull : readCanonicalValue column row ≠ .null) :
    ∃ value, readCanonicalValue column row = .bool value := by
  obtain ⟨position, field, found, isField, child⟩ := resolveColumn_at column resolved
  obtain ⟨type, rfl, isBool⟩ := (Option.any_eq_true _ _).mp isBool
  have same : type = field.type :=
    bound.types (name, some type) (by simp [FilterExpression.columnTypes]) position field found
      isField type rfl
  rw [same] at isBool
  rcases read.booleans position field column isField isBool child _ (cell_mem column notNull) with
    isNull | isBoolean
  · exact absurd isNull notNull
  · exact isBoolean

private theorem columnRef_sound (read : ReadBatch batch) (index : Nat) (name : Text)
    (dataType : Option DataType) (bound : BoundTo batch (.columnRef index name dataType))
    (values : List Value) (value : Value)
    (known : leafValues columnName (.columnRef index name dataType) = some values)
    (evaluated : evaluateExpression batch row context (.columnRef index name dataType) = .ok value)
    (notRejected : NotRejected value) : HasValue batch row columnName values := by
  rw [leafValues, booleanColumnLeaf] at known
  by_cases isBool : dataType.any DataType.isBool = true
  · by_cases isName : name = columnName
    · simp only [if_pos isBool, if_pos isName] at known
      cases known
      obtain ⟨column, resolved, rfl⟩ :=
        columnRef_cell index name dataType value evaluated (ne_null_of_notRejected _ notRejected)
      obtain ⟨flag, isFlag⟩ := boolean_cell read index name dataType bound isBool column resolved
        (ne_null_of_notRejected _ notRejected)
      rw [isFlag] at notRejected
      cases flag with
      | false => cases notRejected.1
      | true =>
          refine ⟨column, by rw [← isName, resolved], .bool true, List.mem_singleton_self _, ?_⟩
          rw [isFlag]
          exact (deepEqual_atom _ _ rfl).mpr (.same _ rfl)
    · simp only [if_pos isBool, if_neg isName] at known
      cases known
  · simp only [if_neg isBool] at known
    cases known

/-- `NOT flag` leaves only false cells. -/
private theorem not_sound (read : ReadBatch batch) (expression : FilterExpression)
    (bound : BoundTo batch (.not expression)) (values : List Value) (value : Value)
    (known : leafValues columnName (.not expression) = some values)
    (evaluated : evaluateExpression batch row context (.not expression) = .ok value)
    (notRejected : NotRejected value) : HasValue batch row columnName values := by
  cases expression with
  | columnRef index name dataType =>
      rw [leafValues, booleanColumnLeaf] at known
      by_cases isBool : dataType.any DataType.isBool = true
      · by_cases isName : name = columnName
        · simp only [if_pos isBool, if_pos isName] at known
          cases known
          rw [evaluateExpression] at evaluated
          obtain ⟨inner, isInner, evaluated⟩ := except_bind_ok _ _ _ evaluated
          have innerSome : inner ≠ .null := by
            rintro rfl
            cases evaluated
            cases notRejected.2
          obtain ⟨column, resolved, rfl⟩ :=
            columnRef_cell index name dataType inner isInner innerSome
          obtain ⟨flag, isFlag⟩ := boolean_cell read index name dataType
            (boundTo_part _ _ bound (by simp [FilterExpression.columnTypes])
              (by simp [FilterExpression.constants]))
            isBool column resolved innerSome
          rw [isFlag] at evaluated
          cases evaluated
          cases flag with
          | true => cases notRejected.1
          | false =>
              refine ⟨column, by rw [← isName, resolved], .bool false,
                List.mem_singleton_self _, ?_⟩
              rw [isFlag]
              exact (deepEqual_atom _ _ rfl).mpr (.same _ rfl)
        · simp only [if_pos isBool, if_neg isName] at known
          cases known
      · simp only [if_neg isBool] at known
        cases known
  | _ => cases known

private theorem orderedCompare_eq (left right : Value) (equal : orderedCompare left right = .eq) :
    deepEqual left right = true := by
  have generic (given : (if deepEqual left right then Ordering.eq
      else if left.less right then .lt else .gt) = .eq) : deepEqual left right = true := by
    by_cases same : deepEqual left right = true
    · exact same
    · rw [if_neg same] at given
      split at given <;> cases given
  unfold orderedCompare at equal
  split at equal
  · rename_i leftNumber rightNumber
    split at equal
    · rename_i oneNan
      split at equal
      · rename_i alike
        rw [deepEqual, Bool.or_eq_true]
        right
        have same : leftNumber.isNaN = rightNumber.isNaN := by simpa using alike
        rw [same, Bool.or_self] at oneNan
        rw [same, oneNan]
        rfl
      · split at equal <;> cases equal
    · exact generic equal
  · exact generic equal

private theorem compare_eq (left right : Value)
    (notRejected : NotRejected (compare left right .eq)) :
    left ≠ .null ∧ right ≠ .null ∧ deepEqual left right = true := by
  have shape : compare left right .eq =
      if isNullValue left || isNullValue right then .null
      else .bool (orderedCompare left right == .eq) := rfl
  rw [shape] at notRejected
  split at notRejected
  · cases notRejected.2
  · rename_i noneNull
    refine ⟨?_, ?_, orderedCompare_eq left right ?_⟩
    · rintro rfl
      exact noneNull rfl
    · rintro rfl
      exact noneNull (by simp [isNullValue])
    · by_cases equal : orderedCompare left right = .eq
      · exact equal
      · have unequal : (orderedCompare left right == .eq) = false := by simpa using equal
        rw [unequal] at notRejected
        cases notRejected.1

private theorem comparison_sound (read : ReadBatch batch) (left right : FilterExpression)
    (bound : BoundTo batch (.comparison .eq left right)) (constant value : Value)
    (known : equalityValue columnName left right = some constant)
    (evaluated : evaluateExpression batch row context (.comparison .eq left right) = .ok value)
    (notRejected : NotRejected value) : HasValue batch row columnName [constant] := by
  rw [evaluateExpression] at evaluated
  obtain ⟨leftValue, leftOk, evaluated⟩ := except_bind_ok _ _ _ evaluated
  obtain ⟨rightValue, rightOk, evaluated⟩ := except_bind_ok _ _ _ evaluated
  cases evaluated
  obtain ⟨leftSome, rightSome, equal⟩ := compare_eq leftValue rightValue notRejected
  have constantDistinct : NamesDistinct constant := by
    refine bound.distinct constant ?_
    rw [FilterExpression.constants]
    exact equalityValue_constant columnName left right constant known
  unfold equalityValue at known
  split at known
  · split at known
    · rename_i isName
      cases known
      rw [evaluateExpression] at rightOk
      cases rightOk
      obtain ⟨column, resolved, rfl⟩ :=
        columnRef_cell _ _ _ leftValue leftOk leftSome
      exact ⟨column, by rw [← isName, resolved], _, List.mem_singleton_self _, equal⟩
    · cases known
  · split at known
    · rename_i isName
      cases known
      rw [evaluateExpression] at leftOk
      cases leftOk
      obtain ⟨column, resolved, rfl⟩ :=
        columnRef_cell _ _ _ rightValue rightOk rightSome
      exact ⟨column, by rw [← isName, resolved], _, List.mem_singleton_self _,
        deepEqual_symm _ _ constantDistinct (cell_distinct read column resolved) equal⟩
    · cases known
  · cases known

private theorem inSet_sound (index : Nat) (dataType : Option DataType) (set : FilterSet)
    (value : Value)
    (evaluated : evaluateExpression batch row context
      (.inSet (.columnRef index columnName dataType) set false) = .ok value)
    (notRejected : NotRejected value) : HasValue batch row columnName set.values := by
  rw [evaluateExpression] at evaluated
  obtain ⟨input, isInput, evaluated⟩ := except_bind_ok _ _ _ evaluated
  cases evaluated
  unfold evaluateIn at notRejected
  split at notRejected
  · cases notRejected.2
  · rename_i inputSome
    split at notRejected
    · rename_i matched
      obtain ⟨member, inSet, both⟩ := List.any_eq_true.mp matched
      obtain ⟨column, resolved, rfl⟩ := columnRef_cell index columnName dataType input isInput
        (by rintro rfl; exact inputSome rfl)
      exact ⟨column, resolved, member, inSet, (Bool.and_eq_true_iff.mp both).2⟩
    · split at notRejected
      · cases notRejected.2
      · cases notRejected.1

private theorem andKleene_each (values : List Value)
    (notRejected : NotRejected (andKleene values)) : ∀ value ∈ values, NotRejected value := by
  unfold andKleene at notRejected
  split at notRejected
  · cases notRejected.1
  · rename_i noneFalse
    split at notRejected
    · cases notRejected.2
    · rename_i noneNull
      intro value member
      constructor
      · exact Bool.eq_false_iff.mpr fun isFalse =>
          noneFalse (List.any_eq_true.mpr ⟨value, member, isFalse⟩)
      · exact Bool.eq_false_iff.mpr fun isNull =>
          noneNull (List.any_eq_true.mpr ⟨value, member, isNull⟩)

private theorem orKleene_some (values : List Value) (notRejected : NotRejected (orKleene values)) :
    ∃ value ∈ values, NotRejected value := by
  unfold orKleene at notRejected
  split at notRejected
  · rename_i someTrue
    obtain ⟨value, member, isTrue⟩ := List.any_eq_true.mp someTrue
    refine ⟨value, member, ?_⟩
    cases value with
    | bool flag =>
        cases flag with
        | false => cases isTrue
        | true => exact ⟨rfl, rfl⟩
    | _ => cases isTrue
  · split at notRejected
    · cases notRejected.2
    · cases notRejected.1

/-- A branch's value is in the union, or one deeply equal to it is. -/
private theorem hasValue_union (branches : List (List Value))
    (distinct : ∀ branch ∈ branches, ∀ value ∈ branch, NamesDistinct value)
    (branch : List Value) (member : branch ∈ branches)
    (held : HasValue batch row columnName branch) :
    HasValue batch row columnName (unionValues branches) := by
  obtain ⟨column, resolved, value, inBranch, equal⟩ := held
  obtain ⟨known, inUnion, same⟩ := unionValues_covers branches branch member value inBranch
  refine ⟨column, resolved, known, inUnion, ?_⟩
  rcases same with rfl | alike
  · exact equal
  · obtain ⟨other, otherBranch, inOther⟩ := mem_unionValues branches known inUnion
    exact deepEqual_trans _ value known equal
      (deepEqual_symm known value (distinct other otherBranch known inOther)
        (distinct branch member value inBranch) alike)

mutual

theorem discreteValues_sound (read : ReadBatch batch) (expression : FilterExpression)
    (values : List Value) (value : Value) (bound : BoundTo batch expression)
    (known : discreteValues columnName expression = some values)
    (evaluated : evaluateExpression batch row context expression = .ok value)
    (notRejected : NotRejected value) : HasValue batch row columnName values := by
  cases expression with
  | columnRef index name dataType =>
      rw [discreteValues] at known
      exact columnRef_sound read index name dataType bound values value known evaluated notRejected
  | not expression =>
      rw [discreteValues] at known
      exact not_sound read expression bound values value known evaluated notRejected
  | comparison op left right =>
      rw [discreteValues] at known
      split at known
      · rename_i isEq
        obtain ⟨constant, isConstant, rfl⟩ := Option.map_eq_some_iff.mp known
        subst isEq
        exact comparison_sound read left right bound constant value isConstant evaluated notRejected
      · cases known
  | inSet expression set negated =>
      cases expression with
      | columnRef index name dataType =>
          rw [discreteValues] at known
          split at known
          · rename_i plain
            cases known
            obtain ⟨rfl, rfl⟩ := plain
            exact inSet_sound index dataType set value evaluated notRejected
          · cases known
      | _ =>
          rw [discreteValues] at known
          · cases known
          all_goals nofun
  | and children =>
      rw [discreteValues] at known
      rw [evaluateExpression] at evaluated
      obtain ⟨results, isEach, evaluated⟩ := except_bind_ok _ _ _ evaluated
      cases evaluated
      exact firstValues_sound read children values results (boundTo_conjunct children bound) known
        isEach (andKleene_each results notRejected)
  | or children =>
      rw [discreteValues] at known
      rw [evaluateExpression] at evaluated
      obtain ⟨branches, areBranches, rfl⟩ := Option.map_eq_some_iff.mp known
      obtain ⟨results, isEach, evaluated⟩ := except_bind_ok _ _ _ evaluated
      cases evaluated
      have bounds := boundTo_disjunct children bound
      obtain ⟨branch, inBranches, held⟩ := branchValues_sound read children branches results bounds
        areBranches isEach (orKleene_some results notRejected)
      exact hasValue_union branches
        (branchValues_distinct columnName children branches bounds areBranches) branch inBranches
        held
  | _ =>
      rw [discreteValues] at known
      · cases known
      all_goals nofun

theorem firstValues_sound (read : ReadBatch batch) (children : List FilterExpression)
    (values results : List Value) (bound : ∀ child ∈ children, BoundTo batch child)
    (known : firstValues columnName children = some values)
    (evaluated : evaluateEach batch row context children = .ok results)
    (notRejected : ∀ value ∈ results, NotRejected value) :
    HasValue batch row columnName values := by
  cases children with
  | nil => cases known
  | cons child rest =>
      rw [firstValues] at known
      rw [evaluateEach] at evaluated
      obtain ⟨first, isFirst, evaluated⟩ := except_bind_ok _ _ _ evaluated
      obtain ⟨others, areOthers, evaluated⟩ := except_bind_ok _ _ _ evaluated
      cases evaluated
      split at known
      · rename_i found isFound
        cases known
        exact discreteValues_sound read child values first (bound child List.mem_cons_self) isFound
          isFirst (notRejected first List.mem_cons_self)
      · exact firstValues_sound read rest values others
          (fun other member => bound other (List.mem_cons_of_mem _ member)) known areOthers
          (fun other member => notRejected other (List.mem_cons_of_mem _ member))

theorem branchValues_sound (read : ReadBatch batch) (children : List FilterExpression)
    (branches : List (List Value)) (results : List Value)
    (bound : ∀ child ∈ children, BoundTo batch child)
    (known : branchValues columnName children = some branches)
    (evaluated : evaluateEach batch row context children = .ok results)
    (accepted : ∃ value ∈ results, NotRejected value) :
    ∃ branch ∈ branches, HasValue batch row columnName branch := by
  obtain ⟨value, member, notRejected⟩ := accepted
  cases children with
  | nil =>
      cases evaluated
      cases member
  | cons child rest =>
      rw [branchValues] at known
      rw [evaluateEach] at evaluated
      obtain ⟨first, isFirst, evaluated⟩ := except_bind_ok _ _ _ evaluated
      obtain ⟨others, areOthers, evaluated⟩ := except_bind_ok _ _ _ evaluated
      cases evaluated
      split at known
      · rename_i values branches isValues areBranches
        cases known
        cases member with
        | head =>
            exact ⟨values, List.mem_cons_self, discreteValues_sound read child values value
              (bound child List.mem_cons_self) isValues isFirst notRejected⟩
        | tail _ member =>
            obtain ⟨branch, inBranches, held⟩ := branchValues_sound read rest branches others
              (fun other member => bound other (List.mem_cons_of_mem _ member)) areBranches
              areOthers ⟨value, member, notRejected⟩
            exact ⟨branch, List.mem_cons_of_mem _ inBranches, held⟩
      · cases known

end

/-- On a row every predicate is TRUE on, the column holds one of the values. -/
theorem column_values_sound (filters : PushdownFilters) (columnName : Text) (values : List Value)
    (batch : Batch) (row : Nat) (read : ReadBatch batch)
    (bound : ∀ predicate ∈ filters.predicates, BoundTo batch predicate.expression)
    (pinned : filters.getColumnValues columnName = some values)
    (passes : ∀ predicate ∈ filters.predicates,
      evaluateExpression batch row filters.evaluationContext predicate.expression =
        .ok (.bool true)) :
    HasValue batch row columnName values := by
  obtain ⟨predicate, member, known⟩ := List.exists_of_findSome?_eq_some pinned
  exact discreteValues_sound read predicate.expression values (.bool true) (bound predicate member)
    known (passes predicate member) ⟨rfl, rfl⟩

end

/-- `(n = 1 OR n IN (2, 3)) AND flag`. -/
def pinnedFilters : PushdownFilters where
  predicates := [⟨text "p", 1, .required, .query, .and [
    .or [
      .comparison .eq (.columnRef 0 (text "n") (some (.int 64 true)))
        (.literal 0 ⟨text "v", .int 64 true, true, .empty⟩ (.bigint 1)),
      .inSet (.columnRef 0 (text "n") (some (.int 64 true)))
        (.literal 1 ⟨text "v", .int 64 true, true, .empty⟩
          [.bigint 2, .bigint 3]) false],
    .columnRef 1 (text "flag") (some .bool)]⟩]
  evaluationContext := ⟨noEvaluationContext, none, none, none, none, none, none⟩
  options := ⟨⟨[], .empty⟩, none, none, none, none⟩
  revisions := .empty
  requiredIds := [text "p"]

def pinnedRows : Batch where
  schema := ⟨[⟨text "n", .int 64 true, true, .empty⟩, ⟨text "flag", .bool, true, .empty⟩], .empty⟩
  numRows := 1
  columns := [[.bigint 3], [.bool true]]
  metadata := none

private theorem readBatch_pinnedRows : ReadBatch pinnedRows := by
  constructor
  · intro index field column isField isBool child cell member
    match index with
    | 0 =>
        cases isField
        cases isBool
    | 1 =>
        cases child
        exact .inr ⟨true, List.mem_singleton.mp member⟩
    | _ + 2 => cases isField
  · intro index column child cell member
    match index with
    | 0 =>
        cases child
        rw [List.mem_singleton.mp member]
        trivial
    | 1 =>
        cases child
        rw [List.mem_singleton.mp member]
        trivial
    | _ + 2 => cases child

private theorem boundTo_pinnedRows :
    ∀ predicate ∈ pinnedFilters.predicates, BoundTo pinnedRows predicate.expression := by
  intro predicate member
  rw [List.mem_singleton.mp member]
  constructor
  · intro reference isReference index field found isField
    simp only [FilterExpression.columnTypes, FilterExpression.allColumnTypes, List.append_nil,
      List.mem_append, List.mem_singleton] at isReference
    have numberAt : pinnedRows.schema.fields.findIdx? (·.name == text "n") = some 0 := by
      decide +kernel
    have flagAt : pinnedRows.schema.fields.findIdx? (·.name == text "flag") = some 1 := by
      decide +kernel
    rcases isReference with (rfl | rfl) | rfl
    · cases found.symm.trans numberAt
      cases isField
      exact fun type isType => (Option.some.inj isType).symm
    · cases found.symm.trans numberAt
      cases isField
      exact fun type isType => (Option.some.inj isType).symm
    · cases found.symm.trans flagAt
      cases isField
      exact fun type isType => (Option.some.inj isType).symm
  · intro value isConstant
    simp only [FilterExpression.constants, FilterExpression.allConstants, FilterSet.values,
      List.append_nil, List.nil_append, List.mem_append, List.mem_cons, List.not_mem_nil,
      or_false] at isConstant
    rcases isConstant with rfl | rfl | rfl
    all_goals trivial

private theorem ok_true (result : Except Fault Value)
    (isTrue : (result.map isTrueValue).toOption = some true) : result = .ok (.bool true) := by
  cases result with
  | error fault => cases isTrue
  | ok value =>
      cases value with
      | bool flag =>
          cases flag with
          | false => cases isTrue
          | true => rfl
      | _ => cases isTrue

theorem column_values_sound_sample :
    pinnedFilters.getColumnValues (text "n") = some [.bigint 1, .bigint 2, .bigint 3] ∧
      HasValue pinnedRows 0 (text "n") [.bigint 1, .bigint 2, .bigint 3] := by
  have pinned : pinnedFilters.getColumnValues (text "n") =
      some [.bigint 1, .bigint 2, .bigint 3] := by
    simp [PushdownFilters.getColumnValues, pinnedFilters, discreteValues, firstValues,
      branchValues, equalityValue, unionValues, addValue, deepEqual, Value.strictEq,
      FilterSet.values]
  refine ⟨pinned, column_values_sound pinnedFilters (text "n") _ pinnedRows 0 readBatch_pinnedRows
    boundTo_pinnedRows pinned fun predicate member => ?_⟩
  rw [List.mem_singleton.mp member]
  exact ok_true _ (by decide +kernel)

end VgiWorker.FilterPushdown
