import VgiWorker.Data.Result
import VgiWorker.FilterPushdown.Deserialize

/-!
# What the filter parser accepts

Inversion of each parsing step, and independence of a reading from the node
count it started at.
-/

set_option autoImplicit false

namespace VgiWorker.FilterPushdown

open VgiWorker.Js VgiWorker.Arrow

theorem reading_bind_ok {α β : Type} (step : Reading α) (next : α → Reading β)
    (nodes after : Nat) (result : β) (success : (step >>= next) nodes = .ok (result, after)) :
    ∃ value middle, step nodes = .ok (value, middle) ∧ next value middle = .ok (result, after) := by
  obtain ⟨⟨value, middle⟩, first, second⟩ := except_bind_ok _ _ _ success
  exact ⟨value, middle, first, second⟩

private theorem reading_pure {α : Type} (value : α) (nodes : Nat) :
    (pure value : Reading α) nodes = .ok (value, nodes) :=
  rfl

theorem reading_lift_ok {α : Type} (step : Except Fault α) (nodes after : Nat) (result : α)
    (success : (liftM step : Reading α) nodes = .ok (result, after)) :
    step = .ok result ∧ after = nodes := by
  obtain ⟨value, first, second⟩ := except_bind_ok _ _ _ success
  cases second
  exact ⟨first, rfl⟩

/-! ## Readings do not depend on the count they start at -/

/-- A reading that succeeds at a node count succeeds in the same way, and counts as many
nodes, at any lower one. -/
def StartsLower {α : Type} (step : Reading α) : Prop :=
  ∀ nodes value after, step nodes = .ok (value, after) →
    nodes ≤ after ∧ ∀ lower ≤ nodes, step lower = .ok (value, lower + (after - nodes))

theorem startsLower_pure {α : Type} (value : α) : StartsLower (pure value : Reading α) := by
  intro nodes result after success
  cases success
  exact ⟨le_refl _, fun lower _ => by rw [Nat.sub_self]; rfl⟩

theorem startsLower_lift {α : Type} (step : Except Fault α) :
    StartsLower (liftM step : Reading α) := by
  intro nodes result after success
  obtain ⟨ok, same⟩ := reading_lift_ok step nodes after result success
  subst ok
  subst same
  exact ⟨le_refl _, fun lower _ => by rw [Nat.sub_self]; rfl⟩

theorem startsLower_bind {α β : Type} (step : Reading α) (next : α → Reading β)
    (first : StartsLower step) (second : ∀ value, StartsLower (next value)) :
    StartsLower (step >>= next) := by
  intro nodes result after success
  obtain ⟨value, middle, stepOk, nextOk⟩ := reading_bind_ok step next nodes after result success
  obtain ⟨up, stepLower⟩ := first nodes value middle stepOk
  obtain ⟨further, nextLower⟩ := second value middle result after nextOk
  refine ⟨le_trans up further, fun lower bound => ?_⟩
  have shifted := nextLower (lower + (middle - nodes)) (by omega)
  have total : lower + (middle - nodes) + (after - middle) = lower + (after - nodes) := by omega
  rw [total] at shifted
  change (step lower >>= fun result => next result.1 result.2) = _
  rw [stepLower lower bound]
  exact shifted

theorem startsLower_countNode : StartsLower countNode := by
  intro nodes result after success
  unfold countNode at success
  split at success
  · cases success
  · rename_i within
    cases success
    refine ⟨Nat.le_succ nodes, fun lower bound => ?_⟩
    have stillWithin : ¬maxNodes < lower + 1 := by omega
    simp [countNode, stillWithin]

theorem startsLower_mapM {α β : Type} (step : α → Reading β) (each : ∀ value, StartsLower (step value))
    (values : List α) : StartsLower (values.mapM step) := by
  induction values with
  | nil => exact startsLower_pure []
  | cons value rest ih =>
      rw [List.mapM_cons]
      apply startsLower_bind _ _ (each value)
      intro first
      apply startsLower_bind _ _ ih
      intro others
      exact startsLower_pure (first :: others)

theorem startsLower_ite {α : Type} (condition : Prop) [Decidable condition]
    (first second : Reading α) (ifTrue : StartsLower first) (ifFalse : StartsLower second) :
    StartsLower (if condition then first else second) := by
  split
  · exact ifTrue
  · exact ifFalse

namespace FilterParser

variable (batch : Batch) (options : DeserializeFilterOptions)

section Nodes

variable (child : Option Json → Reading FilterExpression)
  (each : ∀ value, StartsLower (child value)) (object : Json)

include each

theorem startsLower_fieldRef : StartsLower (fieldRef child object) := by
  refine startsLower_bind _ _ (startsLower_lift _) fun _ => ?_
  refine startsLower_bind _ _ (each _) fun _ => ?_
  exact startsLower_bind _ _ (startsLower_lift _) fun _ => startsLower_pure _

theorem startsLower_comparison : StartsLower (comparison child object) := by
  refine startsLower_bind _ _ (startsLower_lift _) fun _ => ?_
  refine startsLower_bind _ _ (startsLower_lift _) fun _ => ?_
  refine startsLower_bind _ _ (each _) fun _ => ?_
  exact startsLower_bind _ _ (each _) fun _ => startsLower_pure _

theorem startsLower_junction (node : Text) (build : List FilterExpression → FilterExpression) :
    StartsLower (junction child object node build) := by
  refine startsLower_bind _ _ (startsLower_lift _) fun _ => ?_
  refine startsLower_bind _ _ (startsLower_lift _) fun _ => ?_
  refine startsLower_bind _ _ (startsLower_mapM _ (fun _ => each _) _) fun _ => ?_
  split
  · exact startsLower_lift _
  · exact startsLower_pure _

theorem startsLower_negation : StartsLower (negation child object) := by
  refine startsLower_bind _ _ (startsLower_lift _) fun _ => ?_
  refine startsLower_bind _ _ (each _) fun _ => ?_
  split
  · exact startsLower_lift _
  · exact startsLower_pure _

theorem startsLower_isNull : StartsLower (isNull child object) := by
  refine startsLower_bind _ _ (startsLower_lift _) fun _ => ?_
  refine startsLower_bind _ _ (each _) fun _ => ?_
  exact startsLower_bind _ _ (startsLower_lift _) fun _ => startsLower_pure _

theorem startsLower_inSet : StartsLower (inSet batch options child object) := by
  refine startsLower_bind _ _ (startsLower_lift _) fun _ => ?_
  refine startsLower_bind _ _ (startsLower_lift _) fun _ => ?_
  refine startsLower_bind _ _ (startsLower_lift _) fun _ => ?_
  refine startsLower_bind _ _ (each _) fun _ => ?_
  exact startsLower_bind _ _ (startsLower_lift _) fun _ => startsLower_pure _

theorem startsLower_cast : StartsLower (cast batch child object) := by
  refine startsLower_bind _ _ (startsLower_lift _) fun _ => ?_
  refine startsLower_bind _ _ (startsLower_lift _) fun _ => ?_
  exact startsLower_bind _ _ (each _) fun _ => startsLower_pure _

theorem startsLower_arithmetic : StartsLower (arithmetic child object) := by
  refine startsLower_bind _ _ (startsLower_lift _) fun _ => ?_
  refine startsLower_bind _ _ (startsLower_lift _) fun _ => ?_
  refine startsLower_bind _ _ (each _) fun _ => ?_
  exact startsLower_bind _ _ (each _) fun _ => startsLower_pure _

theorem startsLower_negate : StartsLower (negate child object) := by
  refine startsLower_bind _ _ (startsLower_lift _) fun _ => ?_
  exact startsLower_bind _ _ (each _) fun _ => startsLower_pure _

theorem startsLower_call : StartsLower (call options child object) := by
  refine startsLower_bind _ _ (startsLower_lift _) fun _ => ?_
  refine startsLower_bind _ _ (startsLower_lift _) fun _ => ?_
  refine startsLower_bind _ _ (startsLower_lift _) fun _ => ?_
  refine startsLower_bind _ _ (startsLower_mapM _ (fun _ => each _) _) fun _ => ?_
  exact startsLower_lift _

theorem startsLower_runtimeFilter (root : Bool) :
    StartsLower (runtimeFilter batch options child object root) := by
  refine startsLower_bind _ _ (startsLower_lift _) fun _ => ?_
  exact startsLower_bind _ _ (each _) fun _ => startsLower_pure _

theorem startsLower_compound (node : Text) (root : Bool) :
    StartsLower (compound batch options child object node root) := by
  unfold compound
  refine startsLower_ite _ _ _ (startsLower_fieldRef child each object) ?_
  refine startsLower_ite _ _ _ (startsLower_comparison child each object) ?_
  refine startsLower_ite _ _ _ (startsLower_junction child each object node .and) ?_
  refine startsLower_ite _ _ _ (startsLower_junction child each object node .or) ?_
  refine startsLower_ite _ _ _ (startsLower_negation child each object) ?_
  refine startsLower_ite _ _ _ (startsLower_isNull child each object) ?_
  refine startsLower_ite _ _ _ (startsLower_inSet batch options child each object) ?_
  refine startsLower_ite _ _ _ (startsLower_cast batch child each object) ?_
  refine startsLower_ite _ _ _ (startsLower_arithmetic child each object) ?_
  refine startsLower_ite _ _ _ (startsLower_negate child each object) ?_
  refine startsLower_ite _ _ _ (startsLower_call options child each object) ?_
  refine startsLower_ite _ _ _ (startsLower_runtimeFilter batch options child each object root) ?_
  exact startsLower_lift _

end Nodes

theorem startsLower_expression (levels : Nat) (object : Json) (root : Bool) :
    StartsLower (expression batch options levels object root) := by
  induction levels generalizing object root with
  | zero => exact startsLower_lift _
  | succ levels ih =>
      have child (value : Option Json) : StartsLower (do
          let object ← expectObject value (text "child expression")
          expression batch options levels object false) :=
        startsLower_bind _ _ (startsLower_lift _) fun object => ih object false
      unfold expression
      apply startsLower_bind _ _ startsLower_countNode
      intro _
      split
      · split
        · exact startsLower_lift _
        · split
          · exact startsLower_lift _
          · exact startsLower_compound batch options _ child object _ root
      · exact startsLower_lift _
      · exact startsLower_lift _

theorem startsLower_predicate (parser : FilterParser) (object : Json) (location : Text)
    (update : Bool) : StartsLower (parser.predicate object location update) := by
  unfold predicate
  repeat' first
    | exact startsLower_pure _
    | exact startsLower_lift _
    | exact startsLower_expression _ _ _ _ _
    | refine startsLower_bind _ _ ?_ fun _ => ?_

/-! ## Predicates and update headers -/

theorem predicate_ok (parser : FilterParser) (object : Json) (location : Text) (update : Bool)
    (nodes after : Nat) (result : FilterPredicate)
    (success : parser.predicate object location update nodes = .ok (result, after)) :
    predicateId (property object "id") location = .ok result.id ∧
      expectUint (property object "revision") (location ++ text ".revision") =
        .ok result.revision ∧
      predicateMode object location = .ok (result.mode, result.source) ∧
      validateRoot parser.context result.mode result.expression = .ok () := by
  unfold predicate at success
  obtain ⟨_, _, keysOk, success⟩ := reading_bind_ok _ _ _ _ _ success
  obtain ⟨⟨mode, source⟩, _, modeOk, success⟩ := reading_bind_ok _ _ _ _ _ success
  obtain ⟨root, _, rootOk, success⟩ := reading_bind_ok _ _ _ _ _ success
  obtain ⟨expression, _, expressionOk, success⟩ := reading_bind_ok _ _ _ _ _ success
  obtain ⟨_, _, validOk, success⟩ := reading_bind_ok _ _ _ _ _ success
  obtain ⟨id, _, idOk, success⟩ := reading_bind_ok _ _ _ _ _ success
  obtain ⟨revision, _, revisionOk, success⟩ := reading_bind_ok _ _ _ _ _ success
  cases success
  exact ⟨(reading_lift_ok _ _ _ _ idOk).1, (reading_lift_ok _ _ _ _ revisionOk).1,
    (reading_lift_ok _ _ _ _ modeOk).1, (reading_lift_ok _ _ _ _ validOk).1⟩

theorem refuse_ok (condition : Prop) [Decidable condition] (message : Text) (result : Unit)
    (success : refuse condition message = .ok result) : ¬condition := by
  unfold refuse at success
  split at success
  · cases success
  · assumption

theorem upsertHeader_ok (object : Json) (location : Text) (result : Unit)
    (success : upsertHeader object location = .ok result) :
    ∃ source, predicateMode object location = .ok (.advisory, source) := by
  unfold upsertHeader at success
  obtain ⟨⟨mode, source⟩, modeOk, success⟩ := except_bind_ok _ _ _ success
  obtain ⟨_, _, success⟩ := except_bind_ok _ _ _ success
  have advisory : mode = .advisory := not_not.mp (refuse_ok _ _ _ success)
  subst advisory
  exact ⟨source, modeOk⟩

theorem updateHeader_ok (prior : PushdownFilters) (seen : List Text) (entry : Json)
    (location : Text) (head : UpdateHeader)
    (success : updateHeader prior seen entry location = .ok head) :
    predicateId (property head.object "id") location = .ok head.id ∧
      expectUint (property head.object "revision") (location ++ text ".revision") =
        .ok head.revision ∧
      head.id ∉ seen ∧ head.id ∉ prior.requiredIds ∧
      (head.operation = .upsert →
        ∃ source, predicateMode head.object location = .ok (.advisory, source)) := by
  unfold updateHeader at success
  obtain ⟨object, objectOk, success⟩ := except_bind_ok _ _ _ success
  obtain ⟨operation, operationOk, success⟩ := except_bind_ok _ _ _ success
  obtain ⟨_, keysOk, success⟩ := except_bind_ok _ _ _ success
  obtain ⟨_, known, success⟩ := except_bind_ok _ _ _ success
  obtain ⟨id, idOk, success⟩ := except_bind_ok _ _ _ success
  obtain ⟨revision, revisionOk, success⟩ := except_bind_ok _ _ _ success
  obtain ⟨_, unseen, success⟩ := except_bind_ok _ _ _ success
  obtain ⟨_, notRequired, success⟩ := except_bind_ok _ _ _ success
  have freshId := refuse_ok _ _ _ unseen
  have optionalId := refuse_ok _ _ _ notRequired
  split at success
  · obtain ⟨_, upsert, success⟩ := except_bind_ok _ _ _ success
    cases success
    exact ⟨idOk, revisionOk, freshId, optionalId, fun _ => upsertHeader_ok object location _ upsert⟩
  · cases success
    exact ⟨idOk, revisionOk, freshId, optionalId, nofun⟩

/-- An update header depends on the prior filters through their required ids only. -/
theorem updateHeader_congr (prior other : PushdownFilters) (seen : List Text) (entry : Json)
    (location : Text) (sameRequired : prior.requiredIds = other.requiredIds) :
    updateHeader prior seen entry location = updateHeader other seen entry location := by
  unfold updateHeader
  rw [sameRequired]

theorem startsLower_readOperation (parser : FilterParser) (head : UpdateHeader)
    (location : Text) : StartsLower (parser.readOperation head location) := by
  unfold readOperation
  split
  · exact startsLower_bind _ _ (startsLower_predicate parser _ _ _) fun _ => startsLower_pure _
  · exact startsLower_pure _

/-- What an update installs carries the update's own id and revision, and is advisory. -/
theorem readOperation_ok (parser : FilterParser) (prior : PushdownFilters) (seen : List Text)
    (entry : Json) (location : Text) (head : UpdateHeader) (nodes after : Nat)
    (predicate : FilterPredicate)
    (header : updateHeader prior seen entry location = .ok head)
    (success : parser.readOperation head location nodes = .ok (some predicate, after)) :
    predicate.id = head.id ∧ predicate.revision = head.revision ∧ predicate.mode = .advisory := by
  obtain ⟨idOk, revisionOk, _, _, upsertMode⟩ := updateHeader_ok prior seen entry location head header
  unfold readOperation at success
  cases operation : head.operation with
  | upsert =>
      simp only [operation] at success
      obtain ⟨read, middle, readOk, success⟩ := reading_bind_ok _ _ _ _ _ success
      cases success
      obtain ⟨readId, readRevision, readMode, _⟩ := predicate_ok parser _ _ _ _ _ _ readOk
      obtain ⟨source, mode⟩ := upsertMode operation
      rw [idOk] at readId
      rw [revisionOk] at readRevision
      rw [mode] at readMode
      injection readId with sameId
      injection readRevision with sameRevision
      injection readMode with sameMode
      exact ⟨sameId.symm, sameRevision.symm, (congrArg Prod.fst sameMode).symm⟩
  | remove =>
      simp only [operation] at success
      cases success

/-! ## The updates of a delta -/

/-- An upsert's predicate carries the update's id and revision and is advisory. -/
def Update.IsCoherent (update : Update) : Prop :=
  ∀ predicate, update.predicate = some predicate →
    predicate.id = update.id ∧ predicate.revision = update.revision ∧ predicate.mode = .advisory

theorem predicateId_ok (value : Option Json) (location id : Text)
    (success : predicateId value location = .ok id) : utf8Length id ≤ maxIdBytes := by
  unfold predicateId at success
  obtain ⟨read, _, success⟩ := except_bind_ok _ _ _ success
  split at success
  · cases success
  · cases success
    omega

/-- What one step of `readUpdates` does: skip a stale update or read a fresh one. -/
theorem readUpdates_cons (parser : FilterParser) (prior : PushdownFilters) (entry : Json)
    (rest : List Json) (index : Nat) (seen : List Text) (nodes after : Nat)
    (updates : List Update)
    (success : parser.readUpdates prior (entry :: rest) index seen nodes = .ok (updates, after)) :
    ∃ head, updateHeader prior seen entry (entryLocation "updates" index) = .ok head ∧
      ((isStale prior.revisions head.id head.revision = true ∧
          parser.readUpdates prior rest (index + 1) (head.id :: seen) nodes =
            .ok (updates, after)) ∨
        (isStale prior.revisions head.id head.revision = false ∧
          ∃ predicate middle others,
            parser.readOperation head (entryLocation "updates" index) nodes =
              .ok (predicate, middle) ∧
            parser.readUpdates prior rest (index + 1) (head.id :: seen) middle =
              .ok (others, after) ∧
            updates = ⟨head.id, head.revision, predicate⟩ :: others)) := by
  unfold readUpdates at success
  obtain ⟨head, start, headRead, branch⟩ := reading_bind_ok _ _ _ _ _ success
  obtain ⟨headOk, same⟩ := reading_lift_ok _ _ _ _ headRead
  subst same
  refine ⟨head, headOk, ?_⟩
  cases stale : isStale prior.revisions head.id head.revision with
  | true =>
      rw [if_pos stale] at branch
      exact Or.inl ⟨rfl, branch⟩
  | false =>
      rw [if_neg (by simp [stale])] at branch
      obtain ⟨predicate, middle, readOk, tail⟩ := reading_bind_ok _ _ _ _ _ branch
      obtain ⟨others, last, othersOk, final⟩ := reading_bind_ok _ _ _ _ _ tail
      cases final
      exact Or.inr ⟨rfl, predicate, middle, others, readOk, othersOk, rfl⟩

/-- What holds of every update a delta installs. -/
structure FreshUpdate (prior : PushdownFilters) (seen : List Text) (update : Update) : Prop where
  unseen : update.id ∉ seen
  optional : update.id ∉ prior.requiredIds
  fresh : isStale prior.revisions update.id update.revision = false
  coherent : update.IsCoherent
  short : utf8Length update.id ≤ maxIdBytes

theorem readUpdates_fresh (parser : FilterParser) (prior : PushdownFilters) (entries : List Json)
    (index : Nat) (seen : List Text) (nodes after : Nat) (updates : List Update)
    (success : parser.readUpdates prior entries index seen nodes = .ok (updates, after)) :
    (updates.map (·.id)).Nodup ∧ ∀ update ∈ updates, FreshUpdate prior seen update := by
  induction entries generalizing index seen nodes updates with
  | nil =>
      cases success
      exact ⟨List.nodup_nil, fun _ member => absurd member List.not_mem_nil⟩
  | cons entry rest ih =>
      have weaken (head : UpdateHeader) (others : List Update)
          (each : ∀ update ∈ others, FreshUpdate prior (head.id :: seen) update) :
          ∀ update ∈ others, FreshUpdate prior seen update := fun update member =>
        { each update member with
          unseen := fun inSeen => (each update member).unseen (List.mem_cons_of_mem _ inSeen) }
      obtain ⟨head, headOk, ⟨_, skipped⟩ | ⟨fresh, predicate, middle, others, readOk, othersOk, rfl⟩⟩ :=
        readUpdates_cons parser prior entry rest index seen nodes after updates success
      · obtain ⟨nodup, each⟩ := ih _ _ _ _ skipped
        exact ⟨nodup, weaken head updates each⟩
      · obtain ⟨nodup, each⟩ := ih _ _ _ _ othersOk
        obtain ⟨idOk, _, unseen, optional, _⟩ := updateHeader_ok prior seen entry _ head headOk
        refine ⟨?_, ?_⟩
        · rw [List.map_cons, List.nodup_cons]
          refine ⟨fun member => ?_, nodup⟩
          obtain ⟨other, otherMem, sameId⟩ := List.mem_map.mp member
          exact (each other otherMem).unseen (by rw [sameId]; exact List.mem_cons_self)
        · intro update member
          rcases List.mem_cons.mp member with rfl | inOthers
          · refine ⟨unseen, optional, fresh, fun installed same => ?_, predicateId_ok _ _ _ idOk⟩
            subst same
            exact readOperation_ok parser prior seen entry _ head nodes middle installed headOk readOk
          · exact weaken head others each update inOthers

/-- The filters with every revision forgotten, under which no update is stale. -/
def withoutRevisions (prior : PushdownFilters) : PushdownFilters :=
  { prior with revisions := .empty }

def Update.isFresh (revisions : OrderedMap Text Nat) (update : Update) : Bool :=
  !isStale revisions update.id update.revision

/-- A delta that reads in full, stale updates included, reads under any revisions, and
its fresh updates are those of the full reading. -/
theorem readUpdates_of_full (parser : FilterParser) (full prior : PushdownFilters)
    (sameRequired : full.requiredIds = prior.requiredIds) (entries : List Json) (index : Nat)
    (seen : List Text) (nodes after : Nat) (updates : List Update)
    (success : parser.readUpdates (withoutRevisions full) entries index seen nodes =
      .ok (updates, after))
    (lower : Nat) (bound : lower ≤ nodes) :
    ∃ lowerAfter, lowerAfter ≤ after ∧
      parser.readUpdates prior entries index seen lower =
        .ok (updates.filter (Update.isFresh prior.revisions), lowerAfter) := by
  induction entries generalizing index seen nodes updates lower with
  | nil =>
      cases success
      exact ⟨lower, bound, rfl⟩
  | cons entry rest ih =>
      obtain ⟨head, headOk, ⟨stale, _⟩ | ⟨_, predicate, middle, others, readOk, othersOk, rfl⟩⟩ :=
        readUpdates_cons parser _ entry rest index seen nodes after updates success
      · cases stale
      · rw [updateHeader_congr (withoutRevisions full) prior _ _ _ sameRequired] at headOk
        obtain ⟨up, atLower⟩ :=
          startsLower_readOperation parser head _ nodes predicate middle readOk
        have unfolded : parser.readUpdates prior (entry :: rest) index seen lower =
            (if isStale prior.revisions head.id head.revision then
              parser.readUpdates prior rest (index + 1) (head.id :: seen)
            else do
              let predicate ← parser.readOperation head (entryLocation "updates" index)
              let others ← parser.readUpdates prior rest (index + 1) (head.id :: seen)
              pure (⟨head.id, head.revision, predicate⟩ :: others)) lower := by
          rw [readUpdates]
          change (liftM (updateHeader prior seen entry _) >>= _ : Reading _) lower = _
          rw [headOk]
          rfl
        rw [unfolded]
        cases stale : isStale prior.revisions head.id head.revision with
        | true =>
            obtain ⟨lowerAfter, within, skipped⟩ :=
              ih _ _ _ _ othersOk lower (le_trans bound up)
            refine ⟨lowerAfter, within, ?_⟩
            simpa [Update.isFresh, stale] using skipped
        | false =>
            obtain ⟨lowerAfter, within, read⟩ :=
              ih _ _ _ _ othersOk (lower + (middle - nodes)) (by omega)
            refine ⟨lowerAfter, within, ?_⟩
            have first := atLower lower bound
            simp only [Bool.false_eq_true, if_false, bind, StateT.bind, Except.bind, first, read,
              reading_pure, Update.isFresh, List.filter_cons, stale, Bool.not_false,
              if_true]

/-! ## Snapshots -/

theorem snapshotPredicates_short (parser : FilterParser) (entries : List Json) (index nodes after : Nat)
    (predicates : List FilterPredicate)
    (success : parser.snapshotPredicates entries index nodes = .ok (predicates, after)) :
    ∀ predicate ∈ predicates, utf8Length predicate.id ≤ maxIdBytes ∧
      validateRoot parser.context predicate.mode predicate.expression = .ok () := by
  induction entries generalizing index nodes predicates with
  | nil =>
      cases success
      exact fun _ member => absurd member List.not_mem_nil
  | cons entry rest ih =>
      unfold snapshotPredicates at success
      obtain ⟨object, _, _, success⟩ := reading_bind_ok _ _ _ _ _ success
      obtain ⟨first, middle, firstOk, success⟩ := reading_bind_ok _ _ _ _ _ success
      obtain ⟨others, last, othersOk, success⟩ := reading_bind_ok _ _ _ _ _ success
      cases success
      obtain ⟨idOk, _, _, valid⟩ := predicate_ok parser object _ _ _ _ first firstOk
      intro predicate member
      rcases List.mem_cons.mp member with rfl | inOthers
      · exact ⟨predicateId_ok _ _ _ idOk, valid⟩
      · exact ih _ _ _ othersOk predicate inOthers

theorem validateSnapshot_ok (predicates : List FilterPredicate) (ids : List Text)
    (success : validateSnapshot predicates ids = .ok ()) :
    (predicates.map (·.id)).Nodup ∧ (∀ predicate ∈ predicates, predicate.id ∉ ids) ∧
      ∀ predicate ∈ predicates, predicate.revision = 0 := by
  induction predicates generalizing ids with
  | nil => exact ⟨List.nodup_nil, fun _ member => absurd member List.not_mem_nil,
      fun _ member => absurd member List.not_mem_nil⟩
  | cons predicate rest ih =>
      rw [validateSnapshot] at success
      split at success
      · cases success
      · rename_i revisionZero
        split at success
        · cases success
        · rename_i unseen
          obtain ⟨nodup, outside, zero⟩ := ih _ success
          refine ⟨?_, ?_, ?_⟩
          · rw [List.map_cons, List.nodup_cons]
            refine ⟨fun member => ?_, nodup⟩
            obtain ⟨other, otherMem, sameId⟩ := List.mem_map.mp member
            exact outside other otherMem (sameId ▸ List.mem_cons_self)
          · intro other member
            rcases List.mem_cons.mp member with rfl | inRest
            · simpa using unseen
            · exact fun seen => outside other inRest (List.mem_cons_of_mem _ seen)
          · intro other member
            rcases List.mem_cons.mp member with rfl | inRest
            · exact not_not.mp revisionZero
            · exact zero other inRest

theorem snapshot_ok (parser : FilterParser) (result : PushdownFilters)
    (success : parser.snapshot = .ok result) :
    (result.predicates.map (·.id)).Nodup ∧
      (∀ predicate ∈ result.predicates, predicate.revision = 0 ∧
        utf8Length predicate.id ≤ maxIdBytes ∧
        validateRoot result.evaluationContext predicate.mode predicate.expression = .ok ()) ∧
      result.revisions = .ofEntries (result.predicates.map fun predicate => (predicate.id, 0)) ∧
      result.requiredIds = (result.predicates.filter (·.mode == .required)).map (·.id) := by
  obtain ⟨entries, _, success⟩ := except_bind_ok _ _ _ success
  obtain ⟨_, _, success⟩ := except_bind_ok _ _ _ success
  obtain ⟨⟨predicates, after⟩, read, success⟩ := except_bind_ok _ _ _ success
  obtain ⟨_, valid, success⟩ := except_bind_ok _ _ _ success
  cases success
  obtain ⟨nodup, _, zero⟩ := validateSnapshot_ok predicates [] valid
  have each := snapshotPredicates_short parser entries 0 0 after predicates read
  exact ⟨nodup, fun predicate member => ⟨zero predicate member, each predicate member⟩, rfl, rfl⟩

end FilterParser

theorem deserializeFilters_ok (batch : Batch) (options : DeserializeFilterOptions)
    (result : PushdownFilters) (success : deserializeFilters batch options = .ok result) :
    ∃ parser, FilterParser.construct batch options = .ok parser ∧ parser.snapshot = .ok result :=
  except_bind_ok _ _ _ success

end VgiWorker.FilterPushdown
