import Mathlib.Data.Int.ConditionallyCompleteOrder
import Mathlib.Data.Int.Interval
import VgiWorker.Arrow.MessageMeta

/-!
# The scan for the first record batch

A scan ends exactly when every header on its way can be read and the lengths do
not lead it back to a message it has passed. A negative body length can.
-/

set_option autoImplicit false

namespace VgiWorker.Arrow.MessageMeta

open Js

/-! ## Reads -/

private theorem byteAt_outside (bytes : Bytes) (position : Int)
    (outside : position < 0 ∨ bytes.length ≤ position) : byteAt bytes position = 0 := by
  unfold byteAt
  split
  · rfl
  · have beyond : bytes.length ≤ position.toNat := by omega
    rw [List.getElem?_eq_none beyond]
    rfl

private theorem readU32LE_outside (bytes : Bytes) (position : Int)
    (outside : position ≤ -4 ∨ bytes.length ≤ position) : readU32LE bytes position = 0 := by
  unfold readU32LE
  rw [byteAt_outside bytes position (by omega), byteAt_outside bytes (position + 1) (by omega),
    byteAt_outside bytes (position + 2) (by omega), byteAt_outside bytes (position + 3) (by omega)]

private theorem readI32LE_outside (bytes : Bytes) (position : Int)
    (outside : position ≤ -4 ∨ bytes.length ≤ position) : readI32LE bytes position = 0 := by
  rw [readI32LE, readU32LE_outside bytes position outside]
  rfl

/-- A table that can be read starts in the bytes. -/
private theorem readTable_inside (buf : Bytes) (tablePos : Int) (table : FbTable)
    (success : readTable buf tablePos = .ok table) : tablePos < buf.length := by
  by_contra beyond
  have outside : (buf.length : Int) ≤ tablePos := by omega
  have zero : readI16LE buf tablePos = 0 := by
    rw [readI16LE, byteAt_outside buf tablePos (.inr outside),
      byteAt_outside buf (tablePos + 1) (by omega)]
    rfl
  rw [readTable, readI32LE_outside buf tablePos (.inr outside), Int.sub_zero, zero] at success
  cases success

/-! ## Metadata entries -/

/-- How many entries of custom metadata a header has. -/
def entryCount (head : Bytes) : Nat :=
  match readTable head (readU32LE head 0) with
  | .ok msg => ((metadataVector head msg).map Prod.snd).getD 0
  | .error _ => 0

private theorem le_follow (buf : Bytes) (ptrPos : Int) : ptrPos ≤ follow buf ptrPos :=
  Int.le_add_of_nonneg_right (Int.natCast_nonneg _)

/-- Each entry of a vector that is read takes four bytes of the header. -/
private theorem entries_fit (head : Bytes) (vecPos : Int) (vecLen : Nat)
    (declared : readU32LE head vecPos = vecLen)
    (each : ∀ index < vecLen, follow head (vecPos + 4 + 4 * index) < head.length) :
    vecLen ≤ head.length := by
  cases vecLen with
  | zero => exact Nat.zero_le _
  | succ last =>
      have inside := each last (Nat.lt_succ_self last)
      have after := le_follow head (vecPos + 4 + 4 * last)
      have nearStart : -3 ≤ vecPos := by
        by_contra before
        rw [readU32LE_outside head vecPos (by omega)] at declared
        cases declared
      omega

theorem entryCount_le (head : Bytes) (parsed : ParsedMessage)
    (success : readMessageEnvelope head = .ok parsed) : entryCount head ≤ head.length := by
  unfold readMessageEnvelope at success
  obtain ⟨msg, table, success⟩ := except_bind_ok _ _ _ success
  obtain ⟨numRows, _, success⟩ := except_bind_ok _ _ _ success
  obtain ⟨metadata, entries, _⟩ := except_bind_ok _ _ _ success
  unfold entryCount
  simp only [table]
  unfold readMetadata at entries
  cases vector : metadataVector head msg with
  | none => exact Nat.zero_le _
  | some found =>
      obtain ⟨vecPos, vecLen⟩ := found
      simp only [vector] at entries
      have declared : readU32LE head vecPos = vecLen := by
        unfold metadataVector at vector
        obtain ⟨position, _, same⟩ := Option.map_eq_some_iff.1 vector
        cases same
        rfl
      refine entries_fit head vecPos vecLen declared fun index bound => ?_
      obtain ⟨before, after, read⟩ := except_foldlM_each _ _ _ _ entries index (List.mem_range.2 bound)
      obtain ⟨entry, entryTable, _⟩ := except_bind_ok _ _ _ read
      exact readTable_inside head _ entry entryTable

/-! ## Tables of a header -/

/-- The size that the vtable of a table declares. -/
def vtableSize (buf : Bytes) (tablePos : Int) : Int :=
  readI16LE buf (tablePos - readI32LE buf tablePos)

private theorem readTable_exists_iff (buf : Bytes) (tablePos : Int) :
    (∃ table, readTable buf tablePos = .ok table) ↔ 4 ≤ vtableSize buf tablePos := by
  have negative : (vtableSize buf tablePos - 4) / 2 < 0 ↔ ¬4 ≤ vtableSize buf tablePos := by omega
  unfold readTable
  dsimp only
  split
  · rename_i short
    exact iff_of_false (fun ⟨_, failed⟩ => by cases failed) (negative.mp short)
  · rename_i long
    exact iff_of_true ⟨_, rfl⟩ (not_not.mp (mt negative.mpr long))

def batchTables (head : Bytes) (msg : FbTable) : List Int :=
  if readHeaderType head msg = some typeRecordBatch then
    ((fieldAt msg 2).map (follow head)).toList
  else []

def entryTables (head : Bytes) (msg : FbTable) : List Int :=
  match metadataVector head msg with
  | none => []
  | some (vecPos, vecLen) =>
      (List.range vecLen).map fun (index : Nat) => follow head (vecPos + 4 + 4 * index)

/-- The tables a header is read through: the message, its record batch and the entries of its
metadata. -/
def headerTables (head : Bytes) : List Int :=
  (readU32LE head 0 : Int) ::
    match readTable head (readU32LE head 0) with
    | .error _ => []
    | .ok msg => batchTables head msg ++ entryTables head msg

private theorem readNumRows_exists_iff (head : Bytes) (msg : FbTable) :
    (∃ numRows, readNumRows head msg (readHeaderType head msg) = .ok numRows) ↔
      ∀ tablePos ∈ batchTables head msg, 4 ≤ vtableSize head tablePos := by
  unfold readNumRows batchTables
  by_cases batch : readHeaderType head msg = some typeRecordBatch
  · rw [if_pos batch, if_pos batch]
    cases fieldAt msg 2 with
    | none => exact iff_of_true ⟨_, rfl⟩ (by simp)
    | some position =>
        simp only [Option.map_some, Option.toList_some, List.forall_mem_singleton,
          ← readTable_exists_iff]
        constructor
        · rintro ⟨numRows, read⟩
          obtain ⟨table, isTable, _⟩ := except_bind_ok _ _ _ read
          exact ⟨table, isTable⟩
        · rintro ⟨table, isTable⟩
          rw [isTable, except_ok_bind]
          cases fieldAt table 0 with
          | none => exact ⟨_, rfl⟩
          | some length => exact ⟨_, rfl⟩
  · rw [if_neg batch, if_neg batch]
    exact iff_of_true ⟨_, rfl⟩ (by simp)

private theorem readMetadata_exists_iff (head : Bytes) (msg : FbTable) :
    (∃ metadata, readMetadata head msg = .ok metadata) ↔
      ∀ tablePos ∈ entryTables head msg, 4 ≤ vtableSize head tablePos := by
  unfold readMetadata entryTables
  cases metadataVector head msg with
  | none => exact iff_of_true ⟨_, rfl⟩ (by simp)
  | some found =>
      obtain ⟨vecPos, vecLen⟩ := found
      dsimp only
      rw [List.forall_mem_map]
      refine except_foldlM_exists_iff _ _ (fun metadata index => ?_) (List.range vecLen) _
      rw [← readTable_exists_iff]
      constructor
      · rintro ⟨after, read⟩
        obtain ⟨entry, isEntry, _⟩ := except_bind_ok _ _ _ read
        exact ⟨entry, isEntry⟩
      · rintro ⟨entry, isEntry⟩
        exact ⟨_, by rw [readEntry, isEntry, except_ok_bind]⟩

/-- A header can be read exactly when none of its tables has a vtable of less than four bytes. -/
theorem readMessageEnvelope_exists_iff (head : Bytes) :
    (∃ parsed, readMessageEnvelope head = .ok parsed) ↔
      ∀ tablePos ∈ headerTables head, 4 ≤ vtableSize head tablePos := by
  unfold headerTables
  rw [List.forall_mem_cons, ← readTable_exists_iff]
  cases root : readTable head (readU32LE head 0) with
  | error failure =>
      refine iff_of_false ?_ (fun ⟨⟨_, read⟩, _⟩ => by cases read)
      rintro ⟨parsed, read⟩
      obtain ⟨msg, isMsg, _⟩ := except_bind_ok _ _ _ read
      rw [root] at isMsg
      cases isMsg
  | ok msg =>
      dsimp only
      rw [List.forall_mem_append, ← readNumRows_exists_iff, ← readMetadata_exists_iff]
      unfold readMessageEnvelope
      rw [root, except_ok_bind]
      dsimp only
      constructor
      · rintro ⟨parsed, read⟩
        obtain ⟨numRows, isRows, read⟩ := except_bind_ok _ _ _ read
        obtain ⟨metadata, isMetadata, _⟩ := except_bind_ok _ _ _ read
        exact ⟨⟨msg, rfl⟩, ⟨numRows, isRows⟩, metadata, isMetadata⟩
      · rintro ⟨_, ⟨numRows, isRows⟩, metadata, isMetadata⟩
        exact ⟨_, by rw [isRows, except_ok_bind, isMetadata, except_ok_bind]⟩

/-! ## The scan -/

/-- What a scan from a position returns: the metadata of the first record batch of the messages
from there, or nothing. -/
inductive FirstRecordBatch (stream : Bytes) : Int → Option BatchMeta → Prop where
  | ended {pos : Int} : headBounds stream pos = none → FirstRecordBatch stream pos none
  | found {pos start finish : Int} {parsed : ParsedMessage} :
      headBounds stream pos = some (start, finish) →
      readMessageEnvelope (subarray stream start finish) = .ok parsed →
      parsed.headerType = some typeRecordBatch →
      FirstRecordBatch stream pos (some ⟨parsed.numRows, parsed.metadata⟩)
  | unknown {pos start finish : Int} {parsed : ParsedMessage} :
      headBounds stream pos = some (start, finish) →
      readMessageEnvelope (subarray stream start finish) = .ok parsed →
      parsed.headerType ∉ [some typeSchema, some typeDictionaryBatch, some typeRecordBatch] →
      FirstRecordBatch stream pos none
  | later {pos start finish : Int} {parsed : ParsedMessage} {result : Option BatchMeta} :
      headBounds stream pos = some (start, finish) →
      readMessageEnvelope (subarray stream start finish) = .ok parsed →
      parsed.headerType = some typeSchema ∨ parsed.headerType = some typeDictionaryBatch →
      FirstRecordBatch stream (finish + parsed.bodyLength) result →
      FirstRecordBatch stream pos result

/-- What the message at a position makes of the scan. -/
private theorem scanMessage_cases (stream : Bytes) (pos : Int) :
    headBounds stream pos = none ∧ scanMessage stream pos = .ok (.finish none) ∨
      ∃ start finish, headBounds stream pos = some (start, finish) ∧
        ((∃ failure, readMessageEnvelope (subarray stream start finish) = .error failure ∧
            scanMessage stream pos = .error failure) ∨
          ∃ parsed, readMessageEnvelope (subarray stream start finish) = .ok parsed ∧
            (parsed.headerType = some typeRecordBatch ∧
                scanMessage stream pos =
                  .ok (.finish (some ⟨parsed.numRows, parsed.metadata⟩)) ∨
              (parsed.headerType = some typeSchema ∨
                  parsed.headerType = some typeDictionaryBatch) ∧
                scanMessage stream pos = .ok (.goOn (finish + parsed.bodyLength)) ∨
              parsed.headerType ∉
                  [some typeSchema, some typeDictionaryBatch, some typeRecordBatch] ∧
                scanMessage stream pos = .ok (.finish none))) := by
  unfold scanMessage
  cases bounds : headBounds stream pos with
  | none => exact .inl ⟨rfl, rfl⟩
  | some bound =>
      obtain ⟨start, finish⟩ := bound
      refine .inr ⟨start, finish, rfl, ?_⟩
      cases read : readMessageEnvelope (subarray stream start finish) with
      | error failure => exact .inl ⟨failure, rfl, by simp only [read]; rfl⟩
      | ok parsed =>
          refine .inr ⟨parsed, rfl, ?_⟩
          simp only [read, except_ok_bind]
          by_cases batch : parsed.headerType = some typeRecordBatch
          · exact .inl ⟨batch, if_pos batch⟩
          · by_cases skipped : parsed.headerType = some typeSchema ∨
                parsed.headerType = some typeDictionaryBatch
            · exact .inr (.inl ⟨skipped, by rw [if_neg batch, if_pos skipped]⟩)
            · refine .inr (.inr ⟨?_, by rw [if_neg batch, if_neg skipped]⟩)
              rw [not_or] at skipped
              simp [batch, skipped.1, skipped.2]

private theorem firstRecordBatch_of_walk (stream : Bytes) (turns : Nat) (pos : Int)
    (result : Option BatchMeta)
    (ended : Data.walk (scanMessage stream) turns pos = .ok (some result)) :
    FirstRecordBatch stream pos result := by
  induction turns generalizing pos with
  | zero => cases ended
  | succ turns ih =>
      rw [Data.walk] at ended
      rcases scanMessage_cases stream pos with ⟨bounds, step⟩ | ⟨start, finish, bounds, read⟩
      · rw [step] at ended
        cases ended
        exact .ended bounds
      · rcases read with ⟨failure, _, step⟩ | ⟨parsed, read, kinds⟩
        · rw [step] at ended
          cases ended
        · rcases kinds with ⟨batch, step⟩ | ⟨skipped, step⟩ | ⟨other, step⟩
          · rw [step] at ended
            cases ended
            exact .found bounds read batch
          · rw [step] at ended
            exact .later bounds read skipped (ih _ ended)
          · rw [step] at ended
            cases ended
            exact .unknown bounds read other

/-- A message is looked for only in the stream or just before it, and its header ends in it. -/
private theorem headBounds_inside (stream : Bytes) (pos start finish : Int)
    (found : headBounds stream pos = some (start, finish)) :
    -3 ≤ pos ∧ pos + 4 ≤ stream.length ∧ start ≤ stream.length ∧ finish ≤ stream.length := by
  have near : -3 ≤ pos := by
    by_contra before
    have zero := readI32LE_outside stream pos (.inl (by omega))
    unfold headBounds at found
    split at found
    · cases found
    · simp [zero] at found
  unfold headBounds at found
  simp only [Option.ite_none_left_eq_some, Option.some.injEq, Prod.mk.injEq, not_or] at found
  obtain ⟨within, starts, ⟨_, ends⟩, rfl, rfl⟩ := found
  exact ⟨near, by omega, by omega, by omega⟩

private theorem goOn_inside (stream : Bytes) (pos next : Int)
    (step : scanMessage stream pos = .ok (.goOn next)) :
    pos ∈ Finset.Icc (-3 : Int) (stream.length - 4) := by
  rcases scanMessage_cases stream pos with ⟨_, ends⟩ | ⟨start, finish, bounds, _⟩
  · rw [ends] at step
    cases step
  · obtain ⟨near, within, _⟩ := headBounds_inside stream pos start finish bounds
    exact Finset.mem_Icc.2 ⟨near, by omega⟩

/-- The messages on the way of a scan, by the number of messages before them. -/
def messagePosition (stream : Bytes) (count : Nat) : Option Int :=
  Data.visited (scanMessage stream) count 0

/-- The scan ends within one message more than the stream has bytes, with the metadata of the first
record batch or without any; a header that it takes ends in the stream, and has at most as many
entries of metadata as bytes. -/
structure ScanEnds (stream : Bytes) : Prop where
  ends : ∃ turns ≤ stream.length + 1, ∃ result,
    readFirstRecordBatchMeta turns stream = .ok (some result) ∧ FirstRecordBatch stream 0 result
  inside : ∀ count pos start finish, messagePosition stream count = some pos →
    headBounds stream pos = some (start, finish) →
      -3 ≤ pos ∧ start ≤ stream.length ∧ finish ≤ stream.length ∧
        entryCount (subarray stream start finish) ≤ (subarray stream start finish).length

/-- Each header on the way of the scan can be read. -/
def HeadersRead (stream : Bytes) : Prop :=
  ∀ count pos start finish, messagePosition stream count = some pos →
    headBounds stream pos = some (start, finish) →
      ∃ parsed, readMessageEnvelope (subarray stream start finish) = .ok parsed

/-- The scan reads every header unless one on its way has a table with a vtable of less than four
bytes. -/
theorem headersRead_iff_vtables (stream : Bytes) :
    HeadersRead stream ↔ ∀ count pos start finish, messagePosition stream count = some pos →
      headBounds stream pos = some (start, finish) →
        ∀ tablePos ∈ headerTables (subarray stream start finish),
          4 ≤ vtableSize (subarray stream start finish) tablePos := by
  simp only [HeadersRead, readMessageEnvelope_exists_iff]

/-- No message's lengths lead back to a message on the way to it. -/
def NeverComesBack (stream : Bytes) : Prop :=
  ∀ early late pos, early < late → messagePosition stream early = some pos →
    messagePosition stream late ≠ some pos

private theorem headersRead_iff (stream : Bytes) :
    HeadersRead stream ↔ ∀ count pos, messagePosition stream count = some pos →
      ∃ turn, scanMessage stream pos = .ok turn := by
  constructor
  · intro read count pos there
    rcases scanMessage_cases stream pos with ⟨_, step⟩ | ⟨start, finish, bounds, cases⟩
    · exact ⟨_, step⟩
    · obtain ⟨found, parsed⟩ := read count pos start finish there bounds
      rcases cases with ⟨failure, unread, _⟩ | ⟨_, _, ⟨_, step⟩ | ⟨_, step⟩ | ⟨_, step⟩⟩
      · rw [parsed] at unread
        cases unread
      all_goals exact ⟨_, step⟩
  · intro total count pos start finish there bounds
    obtain ⟨turn, taken⟩ := total count pos there
    rcases scanMessage_cases stream pos with ⟨ended, _⟩ | ⟨otherStart, otherFinish, same, cases⟩
    · rw [bounds] at ended
      cases ended
    · rw [bounds] at same
      cases same
      rcases cases with ⟨failure, _, step⟩ | ⟨parsed, read, _⟩
      · rw [taken] at step
        cases step
      · exact ⟨parsed, read⟩

/-- The scan ends exactly when each header on its way can be read and the lengths never lead it
back. -/
theorem scan_ends_iff (stream : Bytes) :
    ScanEnds stream ↔ HeadersRead stream ∧ NeverComesBack stream := by
  have card : (Finset.Icc (-3 : Int) (stream.length - 4)).card = stream.length := by
    rw [Int.card_Icc]
    omega
  have ends := Data.walk_ends_iff (scanMessage stream) (Finset.Icc (-3 : Int) (stream.length - 4)) 0
    (goOn_inside stream)
  rw [card] at ends
  rw [headersRead_iff]
  refine Iff.trans ⟨?_, ?_⟩ ends
  · rintro ⟨⟨turns, bound, result, ended, _⟩, _⟩
    exact ⟨turns, bound, result, ended⟩
  · intro ended
    have read := (headersRead_iff stream).2 (ends.1 ended).1
    obtain ⟨turns, bound, result, ended⟩ := ended
    refine ⟨⟨turns, bound, result, ended, firstRecordBatch_of_walk stream turns 0 result ended⟩, ?_⟩
    intro count pos start finish there bounds
    obtain ⟨parsed, success⟩ := read count pos start finish there bounds
    obtain ⟨near, _, starts, ends⟩ := headBounds_inside stream pos start finish bounds
    exact ⟨near, starts, ends, entryCount_le _ parsed success⟩

private theorem headBounds_start (stream : Bytes) (pos start finish : Int)
    (found : headBounds stream pos = some (start, finish)) : pos < start := by
  unfold headBounds at found
  simp only [Option.ite_none_left_eq_some, Option.some.injEq, Prod.mk.injEq] at found
  obtain ⟨_, _, _, same, _⟩ := found
  rw [← same]
  split <;> omega

/-- Lengths that are not negative lead on. -/
theorem neverComesBack_of_lengths (stream : Bytes)
    (forward : ∀ count pos start finish parsed, messagePosition stream count = some pos →
      headBounds stream pos = some (start, finish) →
        readMessageEnvelope (subarray stream start finish) = .ok parsed →
          start ≤ finish ∧ 0 ≤ parsed.bodyLength) : NeverComesBack stream := by
  have next : ∀ count pos after, messagePosition stream count = some pos →
      messagePosition stream (count + 1) = some after → pos < after := by
    intro count pos after there later
    unfold messagePosition at there later
    rw [Data.visited_add, there, Option.bind_some] at later
    obtain ⟨goal, step⟩ := Data.goOn_of_visited (scanMessage stream) pos after 0 later
    have same : goal = after := by
      rw [Data.visited, step] at later
      exact Option.some.inj later
    subst same
    rcases scanMessage_cases stream pos with ⟨_, other⟩ | ⟨start, finish, bounds, cases⟩
    · rw [step] at other
      cases other
    · have front := headBounds_start stream pos start finish bounds
      rcases cases with ⟨_, _, other⟩ | ⟨parsed, read, ⟨_, other⟩ | ⟨_, other⟩ | ⟨_, other⟩⟩
      all_goals rw [step] at other; cases other
      have lengths := forward count pos start finish parsed there bounds read
      omega
  have increasing : ∀ more early pos after, messagePosition stream early = some pos →
      messagePosition stream (early + (more + 1)) = some after → pos < after := by
    intro more
    induction more with
    | zero => exact next
    | succ more ih =>
        intro early pos after there later
        have between : ∃ middle, messagePosition stream (early + (more + 1)) = some middle := by
          unfold messagePosition at later ⊢
          rw [← Nat.add_assoc, Data.visited_add] at later
          obtain ⟨middle, here, _⟩ := Option.bind_eq_some_iff.1 later
          exact ⟨middle, here⟩
        obtain ⟨middle, here⟩ := between
        exact (ih early pos middle there here).trans (next _ middle after here later)
  intro early late pos earlier there back
  obtain ⟨more, rfl⟩ := Nat.exists_eq_add_of_lt earlier
  rw [Nat.add_assoc] at back
  exact (increasing more early pos pos there back).false

/-- A schema message whose body length leads back to it. -/
private def endlessStream : Bytes :=
  [32, 0, 0, 0, 16, 0, 0, 0, 12, 0, 16, 0, 0, 0, 4, 0, 0, 0, 8, 0, 12, 0, 0, 0, 1, 0, 0, 0,
    220, 255, 255, 255, 255, 255, 255, 255]

/-- The scan does not end on a stream of one message. -/
theorem negative_body_length_hangs : ¬∀ stream : Bytes, ScanEnds stream := by
  intro ends
  have turn : scanMessage endlessStream 0 = .ok (.goOn 0) := rfl
  have stays : ∀ turns, readFirstRecordBatchMeta turns endlessStream = .ok none := by
    intro turns
    induction turns with
    | zero => rfl
    | succ turns ih =>
        rw [readFirstRecordBatchMeta, Data.walk, turn]
        exact ih
  obtain ⟨turns, _, result, ended, _⟩ := (ends endlessStream).ends
  rw [stays] at ended
  cases ended

end VgiWorker.Arrow.MessageMeta
