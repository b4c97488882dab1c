import VgiWorker.FilterPushdown.Evaluate
import VgiWorker.Js.Bytes

/-!
# Dynamic-filter history

The compacted delta history an HTTP stream carries between turns, its encoding
in the state token, and its replay.
-/

set_option autoImplicit false

namespace VgiWorker.FilterPushdown

open VgiWorker.Js VgiWorker.Arrow

def maxDeltaIpcBytes : Nat := 17 * 2 ^ 20

structure FilterDeltaHistory where
  deltas : List Bytes
  order : List Text

def emptyFilterHistory : FilterDeltaHistory := ⟨[], []⟩

/-- What the Arrow library reads a filter document's IPC stream as. -/
abbrev DeserializeBatch := Bytes → Except Fault Batch

section

variable (deserializeBatch : DeserializeBatch)

def decodeFilterDelta (bytes : Bytes) : Except Fault Batch := do
  if maxDeltaIpcBytes < bytes.length then
    .error (.error (text "dynamic filter IPC payload exceeds the encoded-size limit"))
  else if bytes = [] then
    .error (.error (text "dynamic filter metadata must contain one RecordBatch"))
  else
    let batch ← deserializeBatch bytes
    if batch.numRows = 0 ∧ batch.schema.fields = [] then
      .error (.error (text "dynamic filter metadata must contain one RecordBatch"))
    else .ok batch

def revisionKey (id revision : Text) : Text :=
  id ++ [0] ++ revision

/-- `${value}` for a property that may be missing. -/
def templateText (value : Option Json) : Text :=
  match value with
  | some value => jsonText value
  | none => text "undefined"

/-- The key of one update as `JSON.parse` read it. -/
def updateKey (update : Json) : Except Fault Text :=
  match update with
  | .null => .error .typeError
  | update =>
      .ok (revisionKey (templateText (property update "id"))
        (templateText (property update "revision")))

/-- `document.updates ?? []`, as an array to map over. -/
def documentUpdates (document : Json) : Except Fault (List Json) :=
  match document with
  | .null => .error .typeError
  | document =>
      match property document "updates" with
      | none | some .null => .ok []
      | some (.array updates) => .ok updates
      | some _ => .error .typeError

def deltaRevisionKeys (batch : Batch) : Except Fault (List Text) :=
  match batch.getChildAt 0, batch.schema.fields[0]? with
  | some column, some _ =>
      match readJson ecmaScript (readCanonicalValue column 0).toText with
      | .ok document => do
          let updates ← documentUpdates document
          updates.mapM updateKey
      | .error _ => .error .syntaxError
  | _, _ => throwV2 (text "delta document has no filter_spec column")

/-- `wanted.delete(key)` for each key in turn: whether one was there, and what is left. -/
def deleteKeys : List Text → List Text → Bool × List Text
  | [], wanted => (false, wanted)
  | key :: rest, wanted =>
      let (carries, left) := deleteKeys rest (wanted.filter (· ≠ key))
      (wanted.contains key || carries, left)

/-- The deltas that carry a wanted key no earlier delta carries. -/
def considerEach : List Bytes → List Text → Except Fault (List Bytes)
  | [], _ => .ok []
  | bytes :: rest, wanted => do
      let batch ← decodeFilterDelta deserializeBatch bytes
      let keys ← deltaRevisionKeys batch
      let (carries, left) := deleteKeys keys wanted
      let retained ← considerEach rest left
      .ok (if carries then bytes :: retained else retained)

structure RecordedDelta where
  filters : PushdownFilters
  history : FilterDeltaHistory

/-- The keys of the live revisions, tombstones included. -/
def wantedKeys (filters : PushdownFilters) : List Text :=
  filters.revisions.entries.map fun entry => revisionKey entry.1 (Number.decimal entry.2)

def recordFilterDelta (current : PushdownFilters) (history : FilterDeltaHistory)
    (deltaBytes : Bytes) : Except Fault RecordedDelta := do
  let incoming ← decodeFilterDelta deserializeBatch deltaBytes
  let filters ← current.applyDelta incoming
  let deltas ← considerEach deserializeBatch (history.deltas ++ [deltaBytes]) (wantedKeys filters)
  .ok ⟨filters, deltas, filters.predicates.map (·.id)⟩

def replayDeltas : PushdownFilters → List Bytes → Except Fault PushdownFilters
  | filters, [] => .ok filters
  | filters, bytes :: rest => do
      let batch ← decodeFilterDelta deserializeBatch bytes
      let replayed ← filters.applyDelta batch
      replayDeltas replayed rest

def replayFilterHistory (filters : Option PushdownFilters) (history : Option FilterDeltaHistory) :
    Except Fault (Option PushdownFilters) := do
  match history with
  | none => .ok filters
  | some history =>
      if history.deltas = [] then .ok filters
      else
        match filters with
        | none =>
            .error (.error (text "dynamic filter history carried without an initial snapshot"))
        | some filters =>
            let replayed ← replayDeltas deserializeBatch filters history.deltas
            some <$> replayed.withPredicateOrder history.order

end

/-! ## The token encoding -/

def historyFormatVersion : UInt8 := 1

def putChunks (chunks : List Bytes) : Bytes :=
  leBytes 4 chunks.length ++ chunks.flatMap (putChunk 4)

def encodeFilterHistory (history : Option FilterDeltaHistory) : Option Bytes :=
  match history with
  | none => none
  | some history =>
      if history.deltas = [] then none
      else
        some (historyFormatVersion ::
          (putChunks history.deltas ++ putChunks (history.order.map utf8Encode)))

def truncatedHistory {α : Type} : Except Fault α :=
  .error (.error (text "dynamic filter history in the state token is truncated"))

/-- A count of chunks and the chunks. -/
def takeCounted (bytes : Bytes) : Except Fault (List Bytes × Bytes) :=
  match takeInt 4 bytes with
  | none => truncatedHistory
  | some (count, rest) =>
      match takeChunks 4 count rest with
      | none => truncatedHistory
      | some taken => .ok taken

def decodeId (bytes : Bytes) : Except Fault Text :=
  match utf8Decode bytes with
  | some id => .ok id
  | none => .error .typeError

def decodeFilterHistory (bytes : Option Bytes) : Except Fault FilterDeltaHistory :=
  match bytes with
  | none | some [] => .ok emptyFilterHistory
  | some (version :: rest) => do
      if version ≠ historyFormatVersion then
        .error (.error (text "dynamic filter history in the state token has an unknown format"))
      let (deltas, rest) ← takeCounted rest
      let (ids, rest) ← takeCounted rest
      let order ← ids.mapM decodeId
      if rest ≠ [] then
        .error (.error (text "dynamic filter history in the state token has trailing bytes"))
      else .ok ⟨deltas, order⟩

end VgiWorker.FilterPushdown
