import VgiWorker.Arrow.Envelopes

/-!
# What the envelope checks accept

An accepted envelope is a sequence of messages that follow each other without a
gap, in the order its check wants. Each message lies after the one before it, so
that the loops end.
-/

set_option autoImplicit false

namespace VgiWorker.Arrow.Envelopes

open Js Js.DataView

/-! ## Messages -/

/-- The type of the header at an offset. -/
def headerKind (bytes : Bytes) (head : Nat) : Except Text Nat := do
  let table ← rootTable bytes head
  let kindSlot ← slot bytes table 1
  kindAt bytes table kindSlot

/-- The length of the body behind the header at an offset. -/
def declaredBody (bytes : Bytes) (head : Nat) : Except Text Int := do
  let table ← rootTable bytes head
  let bodySlot ← slot bytes table 3
  bodyAt bytes table bodySlot

/-- A message of a kind from one offset to another, with its body inside the input. -/
inductive MessageAt (bytes : Bytes) : Nat → Nat → Nat → Prop where
  | mk {kind start head length body : Nat} :
      messagePrefix bytes start = .ok (head, (length : Int)) → 0 < length →
      headerKind bytes head = .ok kind → declaredBody bytes head = .ok (body : Int) →
      head + length + body ≤ bytes.length →
      MessageAt bytes kind start (head + length + body)

/-- Messages of some kinds, each from the end of the one before it. -/
inductive Messages (bytes : Bytes) (start : Nat) : List Nat → Nat → Prop where
  | none : Messages bytes start [] start
  | append {kinds : List Nat} {kind middle finish : Nat} : Messages bytes start kinds middle →
      MessageAt bytes kind middle finish → Messages bytes start (kinds ++ [kind]) finish

/-- The end marker, with nothing after it. -/
def EndMarker (bytes : Bytes) (start : Nat) : Prop :=
  messagePrefix bytes start = .ok (bytes.length, 0)

theorem messagePrefix_start (bytes : Bytes) (start head : Nat) (length : Int)
    (found : messagePrefix bytes start = .ok (head, length)) : start + 4 ≤ head := by
  unfold messagePrefix at found
  obtain ⟨first, _, found⟩ := except_bind_ok _ _ _ found
  obtain ⟨last, _, found⟩ := except_bind_ok _ _ _ found
  cases found
  split <;> omega

theorem MessageAt.lt {bytes : Bytes} {kind start finish : Nat}
    (message : MessageAt bytes kind start finish) : start < finish := by
  obtain ⟨found, _, _, _, _⟩ := message
  have after := messagePrefix_start _ _ _ _ found
  omega

theorem MessageAt.inside {bytes : Bytes} {kind start finish : Nat}
    (message : MessageAt bytes kind start finish) : finish ≤ bytes.length := by
  obtain ⟨_, _, _, _, inside⟩ := message
  exact inside

/-- The message that the fields of a header declare. -/
private theorem messageAt_of_fields {bytes : Bytes} {start head table kindSlot bodySlot kind : Nat}
    {length body : Int} (found : messagePrefix bytes start = .ok (head, length))
    (positive : 0 < length) (root : rootTable bytes head = .ok table)
    (kindFound : slot bytes table 1 = .ok kindSlot) (bodyFound : slot bytes table 3 = .ok bodySlot)
    (kindRead : kindAt bytes table kindSlot = .ok kind)
    (bodyRead : bodyAt bytes table bodySlot = .ok body) (nonneg : 0 ≤ body)
    (fits : body ≤ bytes.length - head - length) :
    MessageAt bytes kind start (head + length.toNat + body.toNat) := by
  have lengthSame : (length.toNat : Int) = length := Int.toNat_of_nonneg positive.le
  have bodySame : (body.toNat : Int) = body := Int.toNat_of_nonneg nonneg
  refine .mk (by rw [lengthSame]; exact found) (by omega) ?_ ?_ (by omega)
  · rw [headerKind, root, except_ok_bind, kindFound, except_ok_bind, kindRead]
  · rw [declaredBody, root, except_ok_bind, bodyFound, except_ok_bind, bodyRead, bodySame]

/-! ## Projection records -/

private theorem projectionPrefix_ok {bytes : Bytes} {offset : Nat} {found : Nat × Int}
    (success : projectionPrefix bytes offset = .ok found) :
    messagePrefix bytes offset = .ok found := by
  unfold projectionPrefix at success
  split at success
  · cases success
  · obtain ⟨first, _, success⟩ := except_bind_ok _ _ _ success
    by_cases short : bytes.length - offset < if first = -1 then 8 else 4
    · rw [if_pos short] at success
      cases success
    · rw [if_neg short] at success
      exact success

/-- What a message of a projection record does to the state. -/
private theorem projection_step (bytes : Bytes) (state next : ProjectionState)
    (step : projectionMessage bytes state = .ok (.goOn next)) :
    ∃ kind, MessageAt bytes kind state.offset next.offset ∧
      countKind kind state = .ok (next.schemas, next.batches) := by
  unfold projectionMessage at step
  split at step
  · cases step
  · obtain ⟨⟨head, length⟩, found, step⟩ := except_bind_ok _ _ _ step
    dsimp only at step
    split at step
    · cases step
    · split at step
      · cases step
      · next nonzero bounds =>
          obtain ⟨table, root, step⟩ := except_bind_ok _ _ _ step
          obtain ⟨kindSlot, kindFound, step⟩ := except_bind_ok _ _ _ step
          obtain ⟨bodySlot, bodyFound, step⟩ := except_bind_ok _ _ _ step
          obtain ⟨kind, kindRead, step⟩ := except_bind_ok _ _ _ step
          obtain ⟨body, bodyRead, step⟩ := except_bind_ok _ _ _ step
          split at step
          · cases step
          · next bodyBounds =>
              obtain ⟨counts, counted, step⟩ := except_bind_ok _ _ _ step
              cases step
              exact ⟨kind, messageAt_of_fields (projectionPrefix_ok found) (by omega) root kindFound
                bodyFound kindRead bodyRead (by omega) (by omega), counted⟩

/-- The kinds of the messages so far, from a projection record's counts. -/
private def ProjectionKinds (kinds : List Nat) (schemas batches : Nat) : Prop :=
  (schemas = 0 ∧ batches = 0 ∧ kinds = []) ∨
    ∃ dictionaries, schemas = 1 ∧
      (batches = 0 ∧ kinds = schemaKind :: List.replicate dictionaries dictionaryKind ∨
        batches = 1 ∧ kinds = schemaKind :: List.replicate dictionaries dictionaryKind ++ [recordKind])

private theorem countKind_kinds (kinds : List Nat) (kind schemas batches : Nat)
    (state : ProjectionState) (so_far : ProjectionKinds kinds state.schemas state.batches)
    (counted : countKind kind state = .ok (schemas, batches)) :
    ProjectionKinds (kinds ++ [kind]) schemas batches := by
  unfold countKind at counted
  split at counted
  · next isSchema =>
      obtain ⟨rfl, noSchemas, noBatches⟩ := isSchema
      cases counted
      rcases so_far with ⟨_, _, rfl⟩ | ⟨_, oneSchema, _⟩
      · exact .inr ⟨0, by omega, .inl ⟨noBatches, rfl⟩⟩
      · omega
  · split at counted
    · next isDictionary =>
        obtain ⟨rfl, oneSchema, noBatches⟩ := isDictionary
        cases counted
        rcases so_far with ⟨noSchemas, _⟩ | ⟨dictionaries, _, ⟨_, rfl⟩ | ⟨oneBatch, _⟩⟩
        · omega
        · refine .inr ⟨dictionaries + 1, oneSchema, .inl ⟨noBatches, ?_⟩⟩
          rw [List.replicate_succ', List.cons_append]
        · omega
    · split at counted
      · next isRecord =>
          obtain ⟨rfl, oneSchema, noBatches⟩ := isRecord
          cases counted
          rcases so_far with ⟨noSchemas, _⟩ | ⟨dictionaries, _, ⟨_, rfl⟩ | ⟨oneBatch, _⟩⟩
          · omega
          · exact .inr ⟨dictionaries, oneSchema, .inr ⟨by omega, rfl⟩⟩
          · omega
      · cases counted

/-- A projection record's messages: a schema, dictionaries, a record batch, and an end marker or
the end of the input. -/
def ProjectionEnvelope (bytes : Bytes) : Prop :=
  ∃ dictionaries finish,
    Messages bytes 0 (schemaKind :: List.replicate dictionaries dictionaryKind ++ [recordKind])
      finish ∧ (finish = bytes.length ∨ EndMarker bytes finish)

private theorem projection_finish (bytes : Bytes) (state last : ProjectionState)
    (ended : projectionMessage bytes state = .ok (.finish last)) :
    last.schemas = state.schemas ∧ last.batches = state.batches ∧
      (last.offset = bytes.length → state.offset = bytes.length ∨ EndMarker bytes state.offset) := by
  unfold projectionMessage at ended
  split at ended
  · cases ended
    exact ⟨rfl, rfl, .inl⟩
  · obtain ⟨⟨head, length⟩, found, ended⟩ := except_bind_ok _ _ _ ended
    dsimp only at ended
    split at ended
    · next zero =>
        subst zero
        cases ended
        refine ⟨rfl, rfl, fun atEnd => .inr ?_⟩
        have whole : head = bytes.length := atEnd
        rw [EndMarker, ← whole]
        exact projectionPrefix_ok found
    · split at ended
      · cases ended
      · obtain ⟨table, _, ended⟩ := except_bind_ok _ _ _ ended
        obtain ⟨kindSlot, _, ended⟩ := except_bind_ok _ _ _ ended
        obtain ⟨bodySlot, _, ended⟩ := except_bind_ok _ _ _ ended
        obtain ⟨kind, _, ended⟩ := except_bind_ok _ _ _ ended
        obtain ⟨body, _, ended⟩ := except_bind_ok _ _ _ ended
        split at ended
        · cases ended
        · obtain ⟨counts, _, ended⟩ := except_bind_ok _ _ _ ended
          cases ended

private theorem projection_accepted (turns : Nat) (bytes : Bytes)
    (accepted : projectionEnvelope turns bytes = .ok (some ())) : ProjectionEnvelope bytes := by
  unfold projectionEnvelope at accepted
  split at accepted
  · cases accepted
  · obtain ⟨walked, walk, accepted⟩ := except_bind_ok _ _ _ accepted
    cases walked with
    | none => cases accepted
    | some last =>
        dsimp only at accepted
        split at accepted
        · cases accepted
        · next complete =>
            obtain ⟨state, ⟨kinds, messages, counted⟩, ended⟩ :=
              Data.walk_invariant (projectionMessage bytes)
                (fun state => ∃ kinds, Messages bytes 0 kinds state.offset ∧
                  ProjectionKinds kinds state.schemas state.batches)
                ⟨0, 0, 0⟩ ⟨[], .none, .inl ⟨rfl, rfl, rfl⟩⟩
                (fun place next ⟨kinds, messages, counted⟩ step => by
                  obtain ⟨kind, message, stepCounted⟩ := projection_step bytes place next step
                  exact ⟨kinds ++ [kind], .append messages message,
                    countKind_kinds kinds kind _ _ place counted stepCounted⟩)
                turns last walk
            obtain ⟨schemas, batches, atEnd⟩ := projection_finish bytes state last ended
            rcases counted with ⟨noSchemas, _⟩ | ⟨dictionaries, _, ⟨noBatches, _⟩ | ⟨_, rfl⟩⟩
            · omega
            · omega
            · exact ⟨dictionaries, state.offset, messages, atEnd (by omega)⟩

/-! ## Column expressions -/

private theorem expression_step (bytes : Bytes) (state next : ExpressionState)
    (step : expressionMessage bytes state = .ok (.goOn next)) :
    ∃ kind, MessageAt bytes kind state.offset next.offset ∧ next.kinds = state.kinds ++ [kind] := by
  unfold expressionMessage at step
  split at step
  · cases step
  · obtain ⟨⟨head, length⟩, found, step⟩ := except_bind_ok _ _ _ step
    dsimp only at step
    split at step
    · split at step <;> cases step
    · split at step
      · cases step
      · next nonzero bounds =>
          obtain ⟨table, root, step⟩ := except_bind_ok _ _ _ step
          obtain ⟨kindSlot, kindFound, step⟩ := except_bind_ok _ _ _ step
          obtain ⟨bodySlot, bodyFound, step⟩ := except_bind_ok _ _ _ step
          split at step
          · cases step
          · obtain ⟨kind, kindRead, step⟩ := except_bind_ok _ _ _ step
            obtain ⟨body, bodyRead, step⟩ := except_bind_ok _ _ _ step
            split at step
            · cases step
            · next bodyBounds =>
                obtain ⟨buffers, _, step⟩ := except_bind_ok _ _ _ step
                cases step
                exact ⟨kind, messageAt_of_fields found (by omega) root kindFound bodyFound kindRead
                  bodyRead (by omega) (by omega), rfl⟩

/-- A column expression's messages: a schema, a record batch and an end marker. -/
def ExpressionEnvelope (bytes : Bytes) : Prop :=
  ∃ finish, Messages bytes 0 [schemaKind, recordKind] finish ∧ EndMarker bytes finish

private theorem expression_finish (bytes : Bytes) (state : ExpressionState) (buffers : List Bytes)
    (ended : expressionMessage bytes state = .ok (.finish buffers)) :
    state.kinds = [schemaKind, recordKind] ∧ EndMarker bytes state.offset := by
  unfold expressionMessage at ended
  split at ended
  · cases ended
  · obtain ⟨⟨head, length⟩, found, ended⟩ := except_bind_ok _ _ _ ended
    dsimp only at ended
    split at ended
    · next zero =>
        subst zero
        split at ended
        · cases ended
        · next complete =>
            rw [not_or, not_not, not_not] at complete
            refine ⟨complete.2, ?_⟩
            rw [EndMarker, ← complete.1]
            exact found
    · split at ended
      · cases ended
      · obtain ⟨table, _, ended⟩ := except_bind_ok _ _ _ ended
        obtain ⟨kindSlot, _, ended⟩ := except_bind_ok _ _ _ ended
        obtain ⟨bodySlot, _, ended⟩ := except_bind_ok _ _ _ ended
        split at ended
        · cases ended
        · obtain ⟨kind, _, ended⟩ := except_bind_ok _ _ _ ended
          obtain ⟨body, _, ended⟩ := except_bind_ok _ _ _ ended
          split at ended
          · cases ended
          · obtain ⟨found, _, ended⟩ := except_bind_ok _ _ _ ended
            cases ended

private theorem expression_accepted (turns : Nat) (bytes : Bytes) (buffers : List Bytes)
    (accepted : expressionEnvelope turns bytes = .ok (some buffers)) : ExpressionEnvelope bytes := by
  unfold expressionEnvelope at accepted
  split at accepted
  · cases accepted
  · obtain ⟨state, messages, ended⟩ := Data.walk_invariant (expressionMessage bytes)
      (fun state => Messages bytes 0 state.kinds state.offset) ⟨0, [], []⟩ .none
      (fun place next messages step => by
        obtain ⟨kind, message, kinds⟩ := expression_step bytes place next step
        rw [kinds]
        exact .append messages message) turns buffers accepted
    obtain ⟨kinds, marker⟩ := expression_finish bytes state buffers ended
    exact ⟨state.offset, kinds ▸ messages, marker⟩

/-! ## Publications -/

/-- A field in the view of a header is the slot of the table in the whole input. -/
private theorem slot_of_tableField (bytes : Bytes) (start length root field : Nat)
    (result : Option Nat)
    (success : tableField (subview bytes start length) root field = .ok result) :
    ∃ offset, slot bytes (start + root) field = .ok offset ∧
      result = if offset = 0 then none else some (root + offset) := by
  unfold tableField at success
  obtain ⟨back, backRead, success⟩ := except_bind_ok _ _ _ success
  obtain ⟨size, sizeRead, success⟩ := except_bind_ok _ _ _ success
  have vtable : ((start + root : Nat) : Int) - back = start + ((root : Int) - back) := by
    rw [Nat.cast_add]
    ring
  have backWhole := getInt32_subview bytes start length root back backRead
  have sizeWhole := getUint_subview 2 (by decide) bytes start length _ size sizeRead
  rw [slot, Nat.cast_add, backWhole, except_ok_bind, ← Nat.cast_add, vtable]
  change ∃ offset, (getUint 2 _ _ >>= _) = _ ∧ _
  rw [sizeWhole, except_ok_bind]
  split at success
  · cases success
  · split at success
    · next absent =>
        cases success
        exact ⟨0, if_neg (by omega), rfl⟩
    · next present =>
        obtain ⟨offset, offsetRead, success⟩ := except_bind_ok _ _ _ success
        cases success
        have offsetWhole := getUint_subview 2 (by decide) bytes start length _ offset offsetRead
        refine ⟨offset, ?_, rfl⟩
        have position : (start : Int) + (root - back) + 4 + field * 2 =
            start + (root - back + 4 + 2 * field) := by ring
        rw [if_pos (by omega), getUint16, position]
        exact offsetWhole

private theorem headerKind_of_view (bytes : Bytes) (start length root kind : Nat)
    (rootRead : getUint32 (subview bytes start length) 0 = .ok root)
    (kindRead : publicationKind (subview bytes start length) root = .ok kind) :
    headerKind bytes start = .ok kind := by
  have rootWhole := getUint_subview 4 (by decide) bytes start length 0 root rootRead
  rw [Int.add_zero] at rootWhole
  unfold publicationKind at kindRead
  obtain ⟨position, field, kindRead⟩ := except_bind_ok _ _ _ kindRead
  obtain ⟨offset, slotFound, same⟩ := slot_of_tableField bytes start length root 1 position field
  unfold headerKind rootTable getUint32
  rw [rootWhole, except_ok_bind, except_ok_bind, slotFound, except_ok_bind, kindAt]
  subst same
  split at kindRead
  · next absent =>
      have zero : offset = 0 := by simpa using absent
      rw [if_pos zero]
      exact kindRead
  · next position present =>
      split at present
      · cases present
      · next nonzero =>
          cases present
          have whole := getUint_subview 1 (by decide) bytes start length _ kind kindRead
          rw [if_neg nonzero, getUint8]
          push_cast at whole ⊢
          rw [add_assoc]
          exact whole

private theorem declaredBody_of_view (bytes : Bytes) (start length root : Nat) (body : Int)
    (rootRead : getUint32 (subview bytes start length) 0 = .ok root)
    (bodyRead : publicationBody (subview bytes start length) root = .ok body) :
    declaredBody bytes start = .ok body := by
  have rootWhole := getUint_subview 4 (by decide) bytes start length 0 root rootRead
  rw [Int.add_zero] at rootWhole
  unfold publicationBody at bodyRead
  obtain ⟨position, field, bodyRead⟩ := except_bind_ok _ _ _ bodyRead
  obtain ⟨offset, slotFound, same⟩ := slot_of_tableField bytes start length root 3 position field
  unfold declaredBody rootTable getUint32
  rw [rootWhole, except_ok_bind, except_ok_bind, slotFound, except_ok_bind, bodyAt]
  subst same
  split at bodyRead
  · next absent =>
      have zero : offset = 0 := by simpa using absent
      rw [if_pos zero]
      exact bodyRead
  · next position present =>
      split at present
      · cases present
      · next nonzero =>
          cases present
          have whole := getBigInt64_subview bytes start length _ body bodyRead
          rw [if_neg nonzero]
          push_cast at whole ⊢
          rw [add_assoc]
          exact whole

/-- The record batch of a header declares one row. -/
def DeclaresOneRow (head : Bytes) : Prop :=
  ∃ root header record rows, getUint32 head 0 = .ok root ∧
    tableField head root 2 = .ok (some header) ∧ follow head header = .ok record ∧
      tableField head record 0 = .ok (some rows) ∧ getBigInt64 head rows = .ok 1

/-- The keys of a header's custom metadata; an entry may have none. -/
def metadataKeys (head : Bytes) : Except Text (List (Option Text)) := do
  let root ← getUint32 head 0
  match ← tableField head root 4 with
  | none => .ok []
  | some metadata => do
      let vector ← follow head metadata
      let count ← getUint32 head vector
      (List.range count).mapM (entryKey head vector)

def CarriesNoPointer (head : Bytes) : Prop :=
  ∃ keys, metadataKeys head = .ok keys ∧ some pointerKey ∉ keys ∧ some logKey ∉ keys

private theorem declaresOneRow_of_check (head : Bytes) (root : Nat)
    (rootRead : getUint32 head 0 = .ok root) (checked : checkRows head root = .ok ()) :
    DeclaresOneRow head := by
  unfold checkRows at checked
  obtain ⟨header, headerFound, checked⟩ := except_bind_ok _ _ _ checked
  cases header with
  | none => cases checked
  | some header =>
      obtain ⟨record, followed, checked⟩ := except_bind_ok _ _ _ checked
      obtain ⟨rows, rowsFound, checked⟩ := except_bind_ok _ _ _ checked
      cases rows with
      | none => cases checked
      | some rows =>
          obtain ⟨count, counted, checked⟩ := except_bind_ok _ _ _ checked
          split at checked
          · next one =>
              rw [one] at counted
              exact ⟨root, header, record, rows, rootRead, headerFound, followed, rowsFound, counted⟩
          · cases checked

private theorem checkEntry_ok (head : Bytes) (vector index : Nat)
    (checked : checkEntry head vector index = .ok ()) :
    ∃ key, entryKey head vector index = .ok key ∧ some pointerKey ≠ key ∧ some logKey ≠ key := by
  unfold checkEntry at checked
  obtain ⟨key, found, checked⟩ := except_bind_ok _ _ _ checked
  split at checked
  · cases checked
  · next other =>
      rw [not_or] at other
      exact ⟨key, found, Ne.symm other.1, Ne.symm other.2⟩

private theorem carriesNoPointer_of_check (head : Bytes) (root : Nat)
    (rootRead : getUint32 head 0 = .ok root) (checked : checkMetadata head root = .ok ()) :
    CarriesNoPointer head := by
  unfold checkMetadata at checked
  obtain ⟨metadata, found, checked⟩ := except_bind_ok _ _ _ checked
  unfold CarriesNoPointer metadataKeys
  rw [rootRead, except_ok_bind, found, except_ok_bind]
  cases metadata with
  | none => exact ⟨[], rfl, by simp⟩
  | some metadata =>
      obtain ⟨vector, followed, checked⟩ := except_bind_ok _ _ _ checked
      obtain ⟨count, counted, checked⟩ := except_bind_ok _ _ _ checked
      split at checked
      · cases checked
      · obtain ⟨entries, entriesChecked, _⟩ := except_bind_ok _ _ _ checked
        have each : ∀ index ∈ List.range count, checkEntry head vector index = .ok () := by
          intro index member
          obtain ⟨result, _, success⟩ := except_mapM_each _ _ _ entriesChecked index member
          exact success
        obtain ⟨keys, read⟩ := except_mapM_exists (entryKey head vector) (List.range count)
          fun index member => by
            obtain ⟨key, success, _⟩ := checkEntry_ok head vector index (each index member)
            exact ⟨key, success⟩
        have others : ∀ key ∈ keys, some pointerKey ≠ key ∧ some logKey ≠ key := by
          intro key member
          obtain ⟨index, listed, success⟩ := except_mapM_sources _ _ _ read key member
          obtain ⟨other, found, different⟩ := checkEntry_ok head vector index (each index listed)
          rw [success] at found
          cases found
          exact different
        simp only [followed, counted, except_ok_bind]
        exact ⟨keys, read, fun member => (others _ member).1 rfl, fun member => (others _ member).2 rfl⟩

/-- The kind that the next message of a publication must have. -/
private def expectedKind (messages : Nat) : Option Nat :=
  if messages = 0 then some schemaKind else if messages = 1 then some recordKind else none

/-- A message at an offset with a header that satisfies a property. -/
def HeaderAt (bytes : Bytes) (start : Nat) (Holds : Bytes → Prop) : Prop :=
  ∃ head length, messagePrefix bytes start = .ok (head, length) ∧
    Holds (subview bytes head length.toNat)

private theorem publication_step (bytes : Bytes) (state next : PublicationState)
    (step : publicationMessage bytes state = .ok (.goOn next)) :
    ∃ kind, MessageAt bytes kind state.position next.position ∧
      next.messages = state.messages + 1 ∧ expectedKind state.messages = some kind ∧
        HeaderAt bytes state.position fun head =>
          CarriesNoPointer head ∧ (kind = recordKind → DeclaresOneRow head) := by
  unfold publicationMessage at step
  split at step
  · cases step
  · obtain ⟨⟨start, length⟩, found, step⟩ := except_bind_ok _ _ _ step
    dsimp only at step
    split at step
    · split at step <;> cases step
    · split at step
      · cases step
      · next nonzero bounds =>
          obtain ⟨body, header, step⟩ := except_bind_ok _ _ _ step
          split at step
          · cases step
          · next bodyBounds =>
              cases step
              unfold checkHeader at header
              obtain ⟨root, rootRead, header⟩ := except_bind_ok _ _ _ header
              obtain ⟨kind, kindRead, header⟩ := except_bind_ok _ _ _ header
              by_cases expected : some kind ≠ expectedKind state.messages
              · rw [expectedKind] at expected
                rw [if_pos expected] at header
                cases header
              · rw [expectedKind] at expected
                rw [if_neg expected] at header
                obtain ⟨_, record, header⟩ := except_bind_ok _ _ _ header
                obtain ⟨_, metadata, bodyRead⟩ := except_bind_ok _ _ _ header
                have lengthSame : (length.toNat : Int) = length := Int.toNat_of_nonneg (by omega)
                have bodySame : (body.toNat : Int) = body := Int.toNat_of_nonneg (by omega)
                have kindWhole :=
                  headerKind_of_view bytes start length.toNat root kind rootRead kindRead
                have bodyWhole :=
                  declaredBody_of_view bytes start length.toNat root body rootRead bodyRead
                have prefixFound := found
                rw [← lengthSame] at prefixFound
                rw [← bodySame] at bodyWhole
                refine ⟨kind, MessageAt.mk prefixFound (by omega) kindWhole bodyWhole ?_, rfl, ?_,
                  start, length, found, carriesNoPointer_of_check _ root rootRead metadata,
                  fun isRecord => ?_⟩
                · push_cast at bodyBounds
                  omega
                · rw [expectedKind]
                  exact (not_not.1 expected).symm
                · rw [checkRecord, if_pos isRecord] at record
                  exact declaresOneRow_of_check _ root rootRead record

/-- A publication's messages: a schema, a record batch of one row without a pointer or a log line,
and an end marker or the end of the input. -/
def PublicationEnvelope (bytes : Bytes) : Prop :=
  ∃ middle finish, Messages bytes 0 [schemaKind] middle ∧ MessageAt bytes recordKind middle finish ∧
    (finish = bytes.length ∨ EndMarker bytes finish) ∧
      HeaderAt bytes middle fun head => CarriesNoPointer head ∧ DeclaresOneRow head

/-- What has been met of a publication after a number of messages. -/
private def PublicationSoFar (bytes : Bytes) (state : PublicationState) : Prop :=
  (state.messages = 0 ∧ state.position = 0) ∨
    (state.messages = 1 ∧ Messages bytes 0 [schemaKind] state.position) ∨
      state.messages = 2 ∧ ∃ middle, Messages bytes 0 [schemaKind] middle ∧
        MessageAt bytes recordKind middle state.position ∧
          HeaderAt bytes middle fun head => CarriesNoPointer head ∧ DeclaresOneRow head

private theorem publicationSoFar_step (bytes : Bytes) (state next : PublicationState)
    (so_far : PublicationSoFar bytes state)
    (step : publicationMessage bytes state = .ok (.goOn next)) : PublicationSoFar bytes next := by
  obtain ⟨kind, message, count, expected, head, length, found, noPointer, oneRow⟩ :=
    publication_step bytes state next step
  rcases so_far with ⟨zero, start⟩ | ⟨one, schema⟩ | ⟨two, _⟩
  · rw [zero] at expected count
    cases expected
    rw [start] at message
    exact .inr (.inl ⟨count, .append .none message⟩)
  · rw [one] at expected count
    cases expected
    exact .inr (.inr ⟨count, state.position, schema, message, head, length, found, noPointer,
      oneRow rfl⟩)
  · rw [two] at expected
    cases expected

private theorem publication_finish (bytes : Bytes) (state : PublicationState) (messages : Nat)
    (inside : state.position ≤ bytes.length)
    (ended : publicationMessage bytes state = .ok (.finish messages)) :
    messages = state.messages ∧
      (state.position = bytes.length ∨ EndMarker bytes state.position) := by
  unfold publicationMessage at ended
  split at ended
  · cases ended
    exact ⟨rfl, .inl (by omega)⟩
  · obtain ⟨⟨start, length⟩, found, ended⟩ := except_bind_ok _ _ _ ended
    dsimp only at ended
    split at ended
    · next zero =>
        subst zero
        split at ended
        · cases ended
        · next whole =>
            cases ended
            rw [not_not] at whole
            refine ⟨rfl, .inr ?_⟩
            rw [EndMarker, ← whole]
            exact found
    · split at ended
      · cases ended
      · obtain ⟨body, _, ended⟩ := except_bind_ok _ _ _ ended
        split at ended <;> cases ended

private theorem publication_accepted (turns : Nat) (bytes : Bytes)
    (accepted : validateCatalogPublicationEnvelope turns bytes = .ok (some ())) :
    PublicationEnvelope bytes := by
  unfold validateCatalogPublicationEnvelope at accepted
  rw [except_mapError_ok] at accepted
  obtain ⟨walked, walk, accepted⟩ := except_bind_ok _ _ _ accepted
  cases walked with
  | none => cases accepted
  | some messages =>
      dsimp only at accepted
      split at accepted
      · cases accepted
      · next two =>
          rw [not_not] at two
          obtain ⟨state, ⟨so_far, inside⟩, ended⟩ := Data.walk_invariant (publicationMessage bytes)
            (fun state => PublicationSoFar bytes state ∧ state.position ≤ bytes.length) ⟨0, 0⟩
            ⟨.inl ⟨rfl, rfl⟩, Nat.zero_le _⟩
            (fun place next ⟨so_far, _⟩ step => by
              obtain ⟨kind, message, _⟩ := publication_step bytes place next step
              exact ⟨publicationSoFar_step bytes place next so_far step, message.inside⟩)
            turns messages walk
          obtain ⟨count, atEnd⟩ := publication_finish bytes state messages inside ended
          rcases so_far with ⟨zero, _⟩ | ⟨one, _⟩ | ⟨_, middle, schema, record, header⟩
          · omega
          · omega
          · exact ⟨middle, state.position, schema, record, atEnd, header⟩

/-! ## All three -/

/-- Each message moves the offset on, within the input. -/
def Advances {Result State : Type} (bytes : Bytes) (offset : State → Nat)
    (message : State → Except Text (Data.Turn Result State)) : Prop :=
  ∀ state next, message state = .ok (.goOn next) →
    offset state < offset next ∧ offset next ≤ bytes.length

/-- A loop that advances ends within as many messages as there are bytes. -/
private theorem stops_of_advances {Result State : Type} (bytes : Bytes) (offset : State → Nat)
    (message : State → Except Text (Data.Turn Result State))
    (advances : Advances bytes offset message) (start : State) :
    Data.walk message (bytes.length + 1) start ≠ .ok none := by
  refine Data.walk_stops message (fun state => bytes.length - offset state)
    (fun state next step => ?_) _ start (by omega)
  have moved := advances state next step
  omega

/-- The checks accept nothing but their envelopes, and their loops advance until they end. -/
theorem envelopes_sound (bytes : Bytes) :
    (∀ turns, projectionEnvelope turns bytes = .ok (some ()) → ProjectionEnvelope bytes) ∧
      (∀ turns buffers, expressionEnvelope turns bytes = .ok (some buffers) →
        ExpressionEnvelope bytes) ∧
      (∀ turns, validateCatalogPublicationEnvelope turns bytes = .ok (some ()) →
        PublicationEnvelope bytes) ∧
      (Advances bytes ProjectionState.offset (projectionMessage bytes) ∧
        Advances bytes ExpressionState.offset (expressionMessage bytes) ∧
        Advances bytes PublicationState.position (publicationMessage bytes)) ∧
      projectionEnvelope (bytes.length + 1) bytes ≠ .ok none ∧
        expressionEnvelope (bytes.length + 1) bytes ≠ .ok none ∧
        validateCatalogPublicationEnvelope (bytes.length + 1) bytes ≠ .ok none := by
  have projection : Advances bytes ProjectionState.offset (projectionMessage bytes) :=
    fun state next step => by
      obtain ⟨kind, message, _⟩ := projection_step bytes state next step
      exact ⟨message.lt, message.inside⟩
  have expression : Advances bytes ExpressionState.offset (expressionMessage bytes) :=
    fun state next step => by
      obtain ⟨kind, message, _⟩ := expression_step bytes state next step
      exact ⟨message.lt, message.inside⟩
  have publication : Advances bytes PublicationState.position (publicationMessage bytes) :=
    fun state next step => by
      obtain ⟨kind, message, _⟩ := publication_step bytes state next step
      exact ⟨message.lt, message.inside⟩
  refine ⟨fun turns => projection_accepted turns bytes,
    fun turns buffers => expression_accepted turns bytes buffers,
    fun turns => publication_accepted turns bytes, ⟨projection, expression, publication⟩, ?_, ?_, ?_⟩
  · intro endless
    unfold projectionEnvelope at endless
    split at endless
    · cases endless
    · obtain ⟨walked, walk, endless⟩ := except_bind_ok _ _ _ endless
      cases walked with
      | none => exact stops_of_advances bytes _ _ projection _ walk
      | some last =>
          dsimp only at endless
          split at endless <;> cases endless
  · intro endless
    unfold expressionEnvelope at endless
    split at endless
    · cases endless
    · exact stops_of_advances bytes _ _ expression _ endless
  · intro endless
    unfold validateCatalogPublicationEnvelope at endless
    rw [except_mapError_ok] at endless
    obtain ⟨walked, walk, endless⟩ := except_bind_ok _ _ _ endless
    cases walked with
    | none => exact stops_of_advances bytes _ _ publication _ walk
    | some messages =>
        dsimp only at endless
        split at endless <;> cases endless

/-- A schema message and a record batch of one row. -/
private def oneRow : Bytes :=
  [32, 0, 0, 0, 16, 0, 0, 0, 12, 0, 16, 0, 0, 0, 4, 0, 0, 0, 8, 0, 12, 0, 0, 0, 1, 0, 0, 0,
    0, 0, 0, 0, 0, 0, 0, 0] ++
  [56, 0, 0, 0, 16, 0, 0, 0, 12, 0, 20, 0, 0, 0, 4, 0, 8, 0, 12, 0, 12, 0, 0, 0, 3, 0, 0, 0,
    20, 0, 0, 0, 0, 0, 0, 0, 0, 0, 0, 0, 6, 0, 12, 0, 4, 0, 0, 0, 8, 0, 0, 0,
    1, 0, 0, 0, 0, 0, 0, 0]

example : validateCatalogPublicationEnvelope 3 oneRow = .ok (some ()) := rfl

example : projectionEnvelope 3 oneRow = .ok (some ()) := rfl

end VgiWorker.Arrow.Envelopes
