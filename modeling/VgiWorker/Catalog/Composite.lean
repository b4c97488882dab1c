import Mathlib.Data.List.Basic
import Mathlib.Data.List.Enum
import VgiWorker.Crypto.Envelope

/-!
# The composite catalog

One worker serves several catalogs: the name picks the backend at attach, and
the first byte of the attach data in every later call.
-/

set_option autoImplicit false

namespace VgiWorker.Catalog

open VgiWorker.Js VgiWorker.Crypto

/-- The methods of a catalog that are called with attach data and may change its state. -/
inductive AttachMethod where
  | detach
  | version
  | schemas
  | schemaGet
  | schemaCreate
  | schemaDrop
  | schemaContentsTables
  | schemaContentsViews
  | schemaContentsFunctions
  | schemaContentsMacros
  | schemaContentsIndexes
  | tableGet
  | tableCreate
  | tableDrop
  | tableConstraintsApply
  | tableScanFunctionGet
  | tableScanBranchesGet
  | tableColumnStatisticsGet
  | tableCommentSet
  | tableRename
  | tableColumnAdd
  | tableColumnDrop
  | tableColumnRename
  | tableColumnCommentSet
  | tableColumnDefaultSet
  | tableColumnDefaultDrop
  | tableColumnTypeChange
  | tableNotNullSet
  | tableNotNullDrop
  | viewGet
  | viewCreate
  | viewDrop
  | viewRename
  | viewCommentSet
  | viewColumnCommentSet
  | macroGet
  | macroCreate
  | macroDrop
  | indexGet
  | copyFromFormats
  | catalogCapabilities
  | catalogContents
  | catalogContentsOwner
  | transactionBegin
  | transactionCommit
  | transactionRollback
  deriving DecidableEq

/-- A call on an attached catalog. The name is asked for without a state change or a failure. -/
inductive AttachedCall (Args : Type) where
  | catalogNameForAttach
  | method (method : AttachMethod) (args : Args)

inductive CatalogFault where
  | opaqueDataRejected (fault : OpaqueDataRejectedError)
  | vgiError (message errorCode : Text)
  | error (message : Text)
  deriving DecidableEq

def catalogReadOnlyError (operation : Text) : CatalogFault :=
  .vgiError (text "catalog is read-only: " ++ operation ++ text " is not supported")
    (text "FAILED_PRECONDITION")

def notHandled (name : Text) : CatalogFault :=
  .vgiError (text "No worker handles catalog '" ++ name ++ text "'") (text "NOT_FOUND")

/-- An attach result: the attach data and the other fields. -/
structure AttachResult (Rest : Type) where
  attachOpaqueData : Bytes
  rest : Rest

/-- A catalog with its state. -/
structure Backend (State Args Rest Answer : Type) where
  state : State
  catalogs : State → List Text
  attach : State → Text → Args → State × Except CatalogFault (AttachResult Rest)
  catalogNameForAttach : State → Bytes → Option Text
  perform : State → AttachMethod → Bytes → Args → State × Except CatalogFault Answer

/-- What a call comes back with. -/
inductive Reply (Answer : Type) where
  | name (name : Option Text)
  | answer (result : Except CatalogFault Answer)

/-- A call: the backend that got it with its attach data, if one did, and the reply. -/
structure Called (Answer : Type) where
  delivered : Option (Nat × Bytes)
  reply : Reply Answer

section

variable {State Args Rest Answer : Type}

/-- A call that a backend gets. -/
def callBackend (backends : List (Backend State Args Rest Answer)) (index : Nat)
    (backend : Backend State Args Rest Answer) (attachOpaqueData : Bytes)
    (call : AttachedCall Args) : List (Backend State Args Rest Answer) × Called Answer :=
  match call with
  | .catalogNameForAttach =>
      (backends, ⟨some (index, attachOpaqueData),
        .name (backend.catalogNameForAttach backend.state attachOpaqueData)⟩)
  | .method method args =>
      let (state, result) := backend.perform backend.state method attachOpaqueData args
      (backends.set index { backend with state := state },
        ⟨some (index, attachOpaqueData), .answer result⟩)

/-- The first backend that has the catalog attaches it. -/
def attachFirst (backends : List (Backend State Args Rest Answer)) (name : Text) (args : Args) :
    List (Backend State Args Rest Answer) × Except CatalogFault (Nat × AttachResult Rest) :=
  match backends.zipIdx.find? fun entry => name ∈ entry.1.catalogs entry.1.state with
  | none => (backends, .error (notHandled name))
  | some (backend, index) =>
      let (state, result) := backend.attach backend.state name args
      (backends.set index { backend with state := state }, result.map fun result => (index, result))

/-! ## The composite -/

/-- The backends of a composite; its constructor refuses more than a byte can tell apart. -/
structure CompositeCatalog (State Args Rest Answer : Type) where
  backends : List (Backend State Args Rest Answer)
  few : backends.length ≤ 256

def CompositeCatalog.construct (backends : List (Backend State Args Rest Answer)) :
    Except Text (CompositeCatalog State Args Rest Answer) :=
  if few : backends.length ≤ 256 then .ok ⟨backends, few⟩
  else .error (text "CompositeCatalog: at most 256 backends supported")

def route (backends : List (Backend State Args Rest Answer)) (attachOpaqueData : Bytes) :
    Except OpaqueDataRejectedError (Nat × Backend State Args Rest Answer) :=
  match attachOpaqueData with
  | [] => .error ⟨text "attach_opaque_data"⟩
  | routeByte :: _ =>
      match backends[routeByte.toNat]? with
      | some backend => .ok (routeByte.toNat, backend)
      | none => .error ⟨text "attach_opaque_data"⟩

/-- A byte is set in place, so an empty array stays empty. -/
def stamp (index : Nat) (attachOpaqueData : Bytes) : Bytes :=
  match attachOpaqueData with
  | [] => []
  | _ :: rest => UInt8.ofNat index :: rest

/-- A method that is not overridden is the read-only refusal of the base class. -/
def compositeCall (backends : List (Backend State Args Rest Answer)) (attachOpaqueData : Bytes)
    (call : AttachedCall Args) : List (Backend State Args Rest Answer) × Called Answer :=
  match call with
  | .method .tableColumnCommentSet _ =>
      (backends,
        ⟨none, .answer (.error (catalogReadOnlyError (text "catalog_table_column_comment_set")))⟩)
  | call =>
      match route backends attachOpaqueData with
      | .ok (index, backend) => callBackend backends index backend attachOpaqueData call
      | .error fault =>
          (backends, ⟨none,
            match call with
            | .catalogNameForAttach => .name none
            | .method _ _ => .answer (.error (.opaqueDataRejected fault))⟩)

/-! ## What a composite is for -/

/-- An attachment: the backend that made it and the attach data it returned. -/
structure Attachment where
  index : Nat
  attachOpaqueData : Bytes

/-- The call that the backend of an attachment would get on its own. -/
def directCall (backends : List (Backend State Args Rest Answer)) (attachment : Attachment)
    (call : AttachedCall Args) : List (Backend State Args Rest Answer) × Called Answer :=
  match backends[attachment.index]? with
  | some backend => callBackend backends attachment.index backend attachment.attachOpaqueData call
  | none => (backends, ⟨none, .name none⟩)

/-! ## Runs -/

/-- A client attaches, or calls with the attach data of an earlier attach. -/
inductive ClientStep (Args : Type) where
  | attach (name : Text) (args : Args)
  | call (handle : Nat) (call : AttachedCall Args)

inductive Outcome (Rest Answer : Type) where
  | attached (result : Except CatalogFault Rest)
  | called (called : Called Answer)
  | noHandle

/-- The backends, and what each attach so far has left the client with. -/
structure World (State Args Rest Answer Handle : Type) where
  backends : List (Backend State Args Rest Answer)
  handles : List Handle

/-- One step of a client, for a way to hand out attach data and one to serve a call with it. -/
def serveStep {Handle : Type} (handOut : Nat → Bytes → Handle)
    (serve : List (Backend State Args Rest Answer) → Handle → AttachedCall Args →
      List (Backend State Args Rest Answer) × Called Answer)
    (world : World State Args Rest Answer Handle) (step : ClientStep Args) :
    World State Args Rest Answer Handle × Outcome Rest Answer :=
  match step with
  | .attach name args =>
      match attachFirst world.backends name args with
      | (backends, .ok (index, result)) =>
          (⟨backends, world.handles ++ [handOut index result.attachOpaqueData]⟩,
            .attached (.ok result.rest))
      | (backends, .error fault) => (⟨backends, world.handles⟩, .attached (.error fault))
  | .call handle call =>
      match world.handles[handle]? with
      | none => (world, .noHandle)
      | some held =>
          let (backends, called) := serve world.backends held call
          (⟨backends, world.handles⟩, .called called)

def compositeStep (world : World State Args Rest Answer Bytes) (step : ClientStep Args) :
    World State Args Rest Answer Bytes × Outcome Rest Answer :=
  serveStep stamp compositeCall world step

def directStep (world : World State Args Rest Answer Attachment) (step : ClientStep Args) :
    World State Args Rest Answer Attachment × Outcome Rest Answer :=
  serveStep Attachment.mk directCall world step

def compositeRun (world : World State Args Rest Answer Bytes) :
    List (ClientStep Args) → List (Outcome Rest Answer)
  | [] => []
  | step :: rest => (compositeStep world step).2 :: compositeRun (compositeStep world step).1 rest

def directRun (world : World State Args Rest Answer Attachment) :
    List (ClientStep Args) → List (Outcome Rest Answer)
  | [] => []
  | step :: rest => (directStep world step).2 :: directRun (directStep world step).1 rest

end

end VgiWorker.Catalog
