import VgiWorker.FilterPushdown.ReadingRules
import VgiWorker.FilterPushdown.Required

/-!
# Where the sets of a filter come from

Every IN set a scan evaluates was read by the parser, and an external one from
the join key batches of the scan's own options.
-/

set_option autoImplicit false

namespace VgiWorker.FilterPushdown

open VgiWorker.Js VgiWorker.Arrow FilterParser

mutual

/-- The IN sets of an expression. -/
def FilterExpression.sets : FilterExpression → List FilterSet
  | .columnRef _ _ _ | .literal _ _ _ => []
  | .fieldRef expression _ _ _ | .not expression | .isNull expression _ | .cast expression _ _
  | .negate expression => expression.sets
  | .comparison _ left right | .arithmetic _ left right => left.sets ++ right.sets
  | .and children | .or children | .call _ children _ => FilterExpression.allSets children
  | .inSet expression set _ => set :: expression.sets
  | .runtimeFilter _ input _ _ _ _ _ => input.sets

def FilterExpression.allSets : List FilterExpression → List FilterSet
  | [] => []
  | expression :: rest => expression.sets ++ FilterExpression.allSets rest

end

theorem mem_allSets (expressions : List FilterExpression) (set : FilterSet) :
    set ∈ FilterExpression.allSets expressions ↔
      ∃ expression ∈ expressions, set ∈ expression.sets := by
  induction expressions with
  | nil => simp [FilterExpression.allSets]
  | cons first rest ih => simp [FilterExpression.allSets, ih]

/-- An external set holds the named column of the join key batch its index counts. -/
def FromJoinKeys (options : DeserializeFilterOptions) : FilterSet → Prop
  | .literal _ _ _ => True
  | .external batchIndex columnIndex columnName values batch =>
      options.joinKeyBatches.bind (·[batchIndex]?) = some batch ∧
        ∃ field column, batch.schema.fields[columnIndex]? = some field ∧
          batch.getChildAt columnIndex = some column ∧ field.name = columnName ∧
          values = (List.range batch.numRows).map (readCanonicalValue column)

/-! ## Reading -/

namespace FilterParser

variable (batch : Batch) (options : DeserializeFilterOptions)

/-- Every external set of the expression is from the join keys. -/
def SetsFromKeys (expression : FilterExpression) : Prop :=
  ∀ set ∈ expression.sets, FromJoinKeys options set

theorem filterSet_ok (setObject : Json) (set : FilterSet)
    (success : filterSet batch options setObject = .ok set) : FromJoinKeys options set := by
  unfold filterSet at success
  split at success
  · split at success
    · obtain ⟨_, _, success⟩ := except_bind_ok _ _ _ success
      obtain ⟨read, _, success⟩ := except_bind_ok _ _ _ success
      obtain ⟨_, _, success⟩ := except_bind_ok _ _ _ success
      split at success
      · split at success
        · cases success
        · cases success
          trivial
      · cases success
    · split at success
      · obtain ⟨_, _, success⟩ := except_bind_ok _ _ _ success
        obtain ⟨batchIndex, _, success⟩ := except_bind_ok _ _ _ success
        obtain ⟨columnIndex, _, success⟩ := except_bind_ok _ _ _ success
        obtain ⟨columnName, _, success⟩ := except_bind_ok _ _ _ success
        dsimp only at success
        split at success
        · rename_i keyBatch field column keyIs fieldIs columnIs
          split at success
          · cases success
          · rename_i sameName
            obtain ⟨_, _, success⟩ := except_bind_ok _ _ _ success
            cases success
            rw [keyIs] at fieldIs columnIs
            exact ⟨keyIs, field, column, fieldIs, columnIs, not_not.mp sameName, rfl⟩
        · cases success
      · cases success
  · cases success

private theorem setsFromKeys_append (left right : FilterExpression) (sets : List FilterSet)
    (isBoth : sets = left.sets ++ right.sets) (leftHeld : SetsFromKeys options left)
    (rightHeld : SetsFromKeys options right) : ∀ set ∈ sets, FromJoinKeys options set := by
  rw [isBoth]
  intro set member
  exact (List.mem_append.mp member).elim (leftHeld set) (rightHeld set)

private theorem setsFromKeys_all (children : List FilterExpression)
    (held : ∀ child ∈ children, SetsFromKeys options child) :
    ∀ set ∈ FilterExpression.allSets children, FromJoinKeys options set := by
  intro set member
  obtain ⟨child, inChildren, inSets⟩ := (mem_allSets children set).mp member
  exact held child inChildren set inSets

private theorem setsFromKeys_leaf (expression : FilterExpression) (leaf : expression.sets = []) :
    SetsFromKeys options expression := by
  intro set member
  rw [leaf] at member
  exact absurd member List.not_mem_nil

private theorem setsFromKeys_rules : NodeRules batch options (SetsFromKeys options) where
  columnRef _ _ _ := setsFromKeys_leaf options _ rfl
  literal _ _ _ := setsFromKeys_leaf options _ rfl
  fieldRef _ _ _ _ held _ _ := held
  comparison _ left right leftHeld rightHeld :=
    setsFromKeys_append options left right _ rfl leftHeld rightHeld
  and children held := setsFromKeys_all options children fun child member => (held child member).1
  or children held := setsFromKeys_all options children fun child member => (held child member).1
  not _ held _ := held
  isNull _ _ held := held
  inSet _ setObject set _ held isSet := by
    intro other member
    cases member with
    | head => exact filterSet_ok batch options setObject set isSet
    | tail _ member => exact held other member
  cast _ _ _ held := held
  arithmetic _ left right leftHeld rightHeld :=
    setsFromKeys_append options left right _ rfl leftHeld rightHeld
  negate _ held := held
  call _ args _ held := setsFromKeys_all options args held
  runtimeFilter _ _ _ _ _ _ _ held := held

end FilterParser

/-! ## The filters of a scan -/

/-- The filters keep the options of the snapshot, and their sets are from its join keys. -/
structure KeysOf (snapshot filters : PushdownFilters) : Prop where
  options : filters.options = snapshot.options
  sets : ∀ predicate ∈ filters.predicates, SetsFromKeys snapshot.options predicate.expression

theorem keysOf_snapshot (batch : Batch) (options : DeserializeFilterOptions)
    (snapshot : PushdownFilters) (accepted : deserializeFilters batch options = .ok snapshot) :
    KeysOf snapshot snapshot ∧ snapshot.options = options := by
  obtain ⟨same, each⟩ := deserializeFilters_each batch options (SetsFromKeys options)
    (setsFromKeys_rules batch options) snapshot accepted
  subst same
  exact ⟨⟨rfl, fun predicate member => (each predicate member).1⟩, rfl⟩

private theorem applyDelta_coherent (current next : PushdownFilters) (batch : Batch)
    (coherent : current.Coherent) (accepted : current.applyDelta batch = .ok next) :
    next.Coherent := by
  obtain ⟨parser, entries, updates, after, _, _, _, read, _, result⟩ :=
    applyDelta_ok current batch next accepted
  obtain ⟨nodup, each⟩ := readUpdates_fresh parser current entries 0 [] 0 after updates read
  rw [result]
  exact (applyUpdates_registers parser current updates coherent nodup each).1

private theorem reorder_coherent (current next : PushdownFilters) (order : List Text)
    (coherent : current.Coherent) (arranged : current.withPredicateOrder order = .ok next) :
    next.Coherent := by
  obtain ⟨perm, rest⟩ := withPredicateOrder_ok current order next coherent arranged
  exact coherent_of_perm current next coherent perm (by rw [rest])

theorem keysOf_delta (snapshot current next : PushdownFilters) (batch : Batch)
    (held : KeysOf snapshot current) (accepted : current.applyDelta batch = .ok next) :
    KeysOf snapshot next := by
  have rules := setsFromKeys_rules batch current.options
  rw [held.options] at rules
  obtain ⟨options, _, sets⟩ := applyDelta_each current batch (SetsFromKeys snapshot.options)
    (held.options ▸ rules) (fun predicate => SetsFromKeys snapshot.options predicate.expression)
    (fun _ read => read.1) held.sets next accepted
  exact ⟨options.trans held.options, sets⟩

theorem keysOf_reorder (snapshot current next : PushdownFilters) (order : List Text)
    (coherent : current.Coherent) (held : KeysOf snapshot current)
    (arranged : current.withPredicateOrder order = .ok next) : KeysOf snapshot next := by
  obtain ⟨perm, rest⟩ := withPredicateOrder_ok current order next coherent arranged
  refine ⟨by rw [rest]; exact held.options, fun predicate member => ?_⟩
  exact held.sets predicate (perm.mem_iff.mp member)

theorem keysOf_reachable (deserializeBatch : DeserializeBatch) (batch : Batch)
    (options : DeserializeFilterOptions) (snapshot current : PushdownFilters)
    (accepted : deserializeFilters batch options = .ok snapshot)
    (reachable : Reachable deserializeBatch snapshot current) :
    KeysOf snapshot current ∧ snapshot.options = options := by
  obtain ⟨held, options⟩ := keysOf_snapshot batch options snapshot accepted
  obtain ⟨coherent, _⟩ := snapshot_coherent batch _ snapshot accepted
  have both := reachable.invariant deserializeBatch
    (fun filters => filters.Coherent ∧ KeysOf snapshot filters)
    (fun current batch next ⟨coherent, held⟩ accepted =>
      ⟨applyDelta_coherent current next batch coherent accepted,
        keysOf_delta snapshot current next batch held accepted⟩)
    (fun current order next ⟨coherent, held⟩ arranged =>
      ⟨reorder_coherent current next order coherent arranged,
        keysOf_reorder snapshot current next order coherent held arranged⟩)
    snapshot current ⟨coherent, held⟩
  exact ⟨both.2, options⟩

end VgiWorker.FilterPushdown
