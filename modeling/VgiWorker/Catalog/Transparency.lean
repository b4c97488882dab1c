import VgiWorker.Catalog.Composite
import VgiWorker.Js.OrderedMap

/-!
# When a composite is transparent

A composite does in a run what its backends would do on their own, up to the
first call that loses its attach data or its route.
-/

set_option autoImplicit false

namespace VgiWorker.Catalog

open VgiWorker.Js VgiWorker.Crypto

section

variable {State Args Rest Answer : Type}

/-- A call that the composite passes on as it would be on the backend alone: its method is routed,
and stamping leaves the attach data as it was. -/
structure PassedOn (attachment : Attachment) (call : AttachedCall Args) : Prop where
  routed : ∀ args, call ≠ .method .tableColumnCommentSet args
  stamped : attachment.attachOpaqueData.head? = some (UInt8.ofNat attachment.index)

/-- Every call of the run on an attached catalog is passed on. -/
def AllPassedOn (world : World State Args Rest Answer Attachment) : List (ClientStep Args) → Prop
  | [] => True
  | step :: rest =>
      (∀ handle call attachment, step = .call handle call →
        world.handles[handle]? = some attachment → PassedOn attachment call) ∧
      AllPassedOn (directStep world step).1 rest

/-! ## One call -/

theorem stamp_of_head (attachment : Attachment)
    (stamped : attachment.attachOpaqueData.head? = some (UInt8.ofNat attachment.index)) :
    stamp attachment.index attachment.attachOpaqueData = attachment.attachOpaqueData := by
  cases bytes : attachment.attachOpaqueData with
  | nil =>
      rw [bytes] at stamped
      cases stamped
  | cons first rest =>
      rw [bytes] at stamped
      cases stamped
      rfl

private theorem toNat_ofNat_index (index : Nat) (bound : index < 256) :
    (UInt8.ofNat index).toNat = index := by
  rw [UInt8.toNat_ofNat', Nat.mod_eq_of_lt bound]

/-- Attach data that is not empty is routed to the backend that it is stamped for. -/
theorem route_stamp (backends : List (Backend State Args Rest Answer)) (index : Nat)
    (backend : Backend State Args Rest Answer) (few : backends.length ≤ 256)
    (held : backends[index]? = some backend) (attachOpaqueData : Bytes)
    (nonempty : attachOpaqueData ≠ []) :
    route backends (stamp index attachOpaqueData) = .ok (index, backend) := by
  have bound : index < 256 := Nat.lt_of_lt_of_le (List.getElem?_eq_some_iff.mp held).1 few
  cases attachOpaqueData with
  | nil => exact absurd rfl nonempty
  | cons first rest =>
      simp only [stamp, route]
      rw [toNat_ofNat_index index bound, held]

theorem delivered_callBackend (backends : List (Backend State Args Rest Answer)) (index : Nat)
    (backend : Backend State Args Rest Answer) (attachOpaqueData : Bytes)
    (call : AttachedCall Args) :
    (callBackend backends index backend attachOpaqueData call).2.delivered =
      some (index, attachOpaqueData) := by
  cases call with
  | catalogNameForAttach => rfl
  | method method args => rfl

theorem length_callBackend (backends : List (Backend State Args Rest Answer)) (index : Nat)
    (backend : Backend State Args Rest Answer) (attachOpaqueData : Bytes)
    (call : AttachedCall Args) :
    (callBackend backends index backend attachOpaqueData call).1.length = backends.length := by
  cases call with
  | catalogNameForAttach => rfl
  | method method args => exact List.length_set ..

private theorem compositeCall_routed (backends : List (Backend State Args Rest Answer))
    (attachOpaqueData : Bytes) (call : AttachedCall Args) (index : Nat)
    (backend : Backend State Args Rest Answer)
    (routed : ∀ args, call ≠ .method .tableColumnCommentSet args)
    (route : route backends attachOpaqueData = .ok (index, backend)) :
    compositeCall backends attachOpaqueData call =
      callBackend backends index backend attachOpaqueData call := by
  unfold compositeCall
  split
  · next args => exact absurd rfl (routed args)
  · rw [route]

private theorem delivered_rejected (backends : List (Backend State Args Rest Answer))
    (call : AttachedCall Args) : (compositeCall backends [] call).2.delivered = none := by
  unfold compositeCall
  split
  · rfl
  · rfl

variable (backends : List (Backend State Args Rest Answer)) (attachment : Attachment)
  (call : AttachedCall Args) (few : backends.length ≤ 256)
  (valid : attachment.index < backends.length)

include few valid

/-- A call that is passed on does what it does on the backend alone. -/
theorem compositeCall_passedOn (passedOn : PassedOn attachment call) :
    compositeCall backends (stamp attachment.index attachment.attachOpaqueData) call =
      directCall backends attachment call := by
  have held : backends[attachment.index]? = some backends[attachment.index] :=
    List.getElem?_eq_getElem valid
  have nonempty : attachment.attachOpaqueData ≠ [] := by
    intro empty
    have stamped := passedOn.stamped
    rw [empty] at stamped
    cases stamped
  rw [compositeCall_routed backends _ call attachment.index _ passedOn.routed
    (route_stamp backends attachment.index _ few held _ nonempty), directCall, held,
    stamp_of_head attachment passedOn.stamped]

/-- A call that gets to the backend with its attach data is one that is passed on. -/
theorem passedOn_of_delivered
    (delivered : (compositeCall backends
      (stamp attachment.index attachment.attachOpaqueData) call).2.delivered =
        (directCall backends attachment call).2.delivered) : PassedOn attachment call := by
  have held : backends[attachment.index]? = some backends[attachment.index] :=
    List.getElem?_eq_getElem valid
  have direct : (directCall backends attachment call).2.delivered =
      some (attachment.index, attachment.attachOpaqueData) := by
    rw [directCall, held]
    exact delivered_callBackend ..
  rw [direct] at delivered
  have routed : ∀ args, call ≠ .method .tableColumnCommentSet args := by
    rintro args rfl
    cases delivered
  refine ⟨routed, ?_⟩
  cases bytes : attachment.attachOpaqueData with
  | nil =>
      rw [bytes, stamp, delivered_rejected] at delivered
      cases delivered
  | cons first rest =>
      have nonempty : attachment.attachOpaqueData ≠ [] := by simp [bytes]
      rw [compositeCall_routed backends _ call attachment.index _ routed
        (route_stamp backends attachment.index _ few held _ nonempty),
        delivered_callBackend, bytes] at delivered
      simp only [stamp, Option.some.injEq, Prod.mk.injEq, List.cons.injEq, true_and, and_true]
        at delivered
      rw [delivered]
      rfl

end

/-! ## A run -/

section

variable {State Args Rest Answer : Type}

/-- The composite's world is the direct one with the attach data stamped. -/
structure Stamps (composite : World State Args Rest Answer Bytes)
    (direct : World State Args Rest Answer Attachment) : Prop where
  backends : composite.backends = direct.backends
  handles : composite.handles =
    direct.handles.map fun attachment => stamp attachment.index attachment.attachOpaqueData
  few : direct.backends.length ≤ 256
  valid : ∀ attachment ∈ direct.handles, attachment.index < direct.backends.length

private theorem attachFirst_spec (backends : List (Backend State Args Rest Answer)) (name : Text)
    (args : Args) :
    (attachFirst backends name args).1.length = backends.length ∧
      ∀ index result, (attachFirst backends name args).2 = .ok (index, result) →
        index < backends.length := by
  unfold attachFirst
  cases found : backends.zipIdx.find? fun entry => name ∈ entry.1.catalogs entry.1.state with
  | none => exact ⟨rfl, nofun⟩
  | some entry =>
      obtain ⟨backend, index⟩ := entry
      refine ⟨List.length_set .., fun other result success => ?_⟩
      have bound := (List.getElem?_eq_some_iff.mp
        (List.mem_zipIdx_iff_getElem?.mp (List.mem_of_find?_eq_some found))).1
      obtain ⟨made, _, same⟩ : ∃ made, (backend.attach backend.state name args).2 = .ok made ∧
          (index, made) = (other, result) := by
        cases attached : (backend.attach backend.state name args).2 with
        | error fault =>
            simp only [attached] at success
            cases success
        | ok made =>
            simp only [attached] at success
            exact ⟨made, rfl, Except.ok.inj success⟩
      cases same
      exact bound

variable (composite : World State Args Rest Answer Bytes)
  (direct : World State Args Rest Answer Attachment) (stamps : Stamps composite direct)

include stamps

private theorem attach_agrees (name : Text) (args : Args) :
    Stamps (compositeStep composite (.attach name args)).1 (directStep direct (.attach name args)).1 ∧
      (compositeStep composite (.attach name args)).2 =
        (directStep direct (.attach name args)).2 := by
  obtain ⟨length, bound⟩ := attachFirst_spec direct.backends name args
  unfold compositeStep directStep serveStep
  dsimp only
  rw [stamps.backends]
  cases attached : attachFirst direct.backends name args with
  | mk backends result =>
      rw [attached] at length bound
      cases result with
      | error fault =>
          exact ⟨⟨rfl, stamps.handles, length.trans_le stamps.few,
            fun attachment member => length ▸ stamps.valid attachment member⟩, rfl⟩
      | ok made =>
          obtain ⟨index, result⟩ := made
          refine ⟨⟨rfl, ?_, length.trans_le stamps.few, fun attachment member => ?_⟩, rfl⟩
          · simp only [stamps.handles, List.map_append, List.map_cons, List.map_nil]
          · rw [length]
            rcases List.mem_append.mp member with before | here
            · exact stamps.valid attachment before
            · rw [List.mem_singleton.mp here]
              exact bound index result rfl

private theorem call_agrees (handle : Nat) (call : AttachedCall Args)
    (passedOn : ∀ attachment, direct.handles[handle]? = some attachment →
      PassedOn attachment call) :
    Stamps (compositeStep composite (.call handle call)).1 (directStep direct (.call handle call)).1 ∧
      (compositeStep composite (.call handle call)).2 =
        (directStep direct (.call handle call)).2 := by
  have handles := congrArg (fun handles => handles[handle]?) stamps.handles
  simp only [List.getElem?_map] at handles
  unfold compositeStep directStep serveStep
  dsimp only
  cases held : direct.handles[handle]? with
  | none =>
      rw [held] at handles
      simp only [handles, Option.map_none]
      exact ⟨stamps, trivial⟩
  | some attachment =>
      rw [held] at handles
      have valid := stamps.valid attachment (List.mem_of_getElem? held)
      simp only [handles, Option.map_some]
      rw [stamps.backends, compositeCall_passedOn direct.backends attachment call stamps.few valid
        (passedOn attachment held)]
      have length : (directCall direct.backends attachment call).1.length =
          direct.backends.length := by
        rw [directCall, List.getElem?_eq_getElem valid]
        exact length_callBackend ..
      exact ⟨⟨rfl, stamps.handles, length.trans_le stamps.few,
        fun other member => length ▸ stamps.valid other member⟩, rfl⟩

private theorem passedOn_of_agrees (handle : Nat) (call : AttachedCall Args)
    (agrees : (compositeStep composite (.call handle call)).2 =
      (directStep direct (.call handle call)).2) (attachment : Attachment)
    (held : direct.handles[handle]? = some attachment) : PassedOn attachment call := by
  have handles := congrArg (fun handles => handles[handle]?) stamps.handles
  simp only [List.getElem?_map, held, Option.map_some] at handles
  have valid := stamps.valid attachment (List.mem_of_getElem? held)
  simp only [compositeStep, directStep, serveStep, handles, held, stamps.backends,
    Outcome.called.injEq] at agrees
  exact passedOn_of_delivered direct.backends attachment call stamps.few valid
    (congrArg Called.delivered agrees)

private theorem runs_agree_iff (steps : List (ClientStep Args)) :
    compositeRun composite steps = directRun direct steps ↔ AllPassedOn direct steps := by
  induction steps generalizing composite direct with
  | nil => exact ⟨fun _ => trivial, fun _ => rfl⟩
  | cons step rest ih =>
      constructor
      · intro same
        obtain ⟨first, others⟩ := List.cons.inj same
        cases step with
        | attach name args =>
            obtain ⟨next, _⟩ := attach_agrees composite direct stamps name args
            exact ⟨fun _ _ _ same => (by cases same), (ih _ _ next).mp others⟩
        | call handle call =>
            have passedOn := passedOn_of_agrees composite direct stamps handle call first
            obtain ⟨next, _⟩ := call_agrees composite direct stamps handle call passedOn
            refine ⟨fun other otherCall attachment same held => ?_, (ih _ _ next).mp others⟩
            cases same
            exact passedOn attachment held
      · rintro ⟨passedOn, others⟩
        cases step with
        | attach name args =>
            obtain ⟨next, first⟩ := attach_agrees composite direct stamps name args
            exact List.cons_eq_cons.mpr ⟨first, (ih _ _ next).mpr others⟩
        | call handle call =>
            obtain ⟨next, first⟩ := call_agrees composite direct stamps handle call
              fun attachment held => passedOn handle call attachment rfl held
            exact List.cons_eq_cons.mpr ⟨first, (ih _ _ next).mpr others⟩

omit stamps in
/-- In a run every call gets to the backend that made its attachment, with the attach data that
this returned, and has the reply it has there, exactly when every call is passed on. -/
theorem composite_transparent_iff (catalog : CompositeCatalog State Args Rest Answer)
    (steps : List (ClientStep Args)) :
    compositeRun ⟨catalog.backends, []⟩ steps = directRun ⟨catalog.backends, []⟩ steps ↔
      AllPassedOn ⟨catalog.backends, []⟩ steps :=
  runs_agree_iff _ _ ⟨rfl, rfl, catalog.few, fun _ member => absurd member List.not_mem_nil⟩ steps

end

/-! ## A read-only catalog behind a composite -/

/-- The attachments of a read-only catalog by name, and the bytes it draws next. -/
structure ReadOnlyState where
  attachments : OrderedMap Text Bytes
  draws : List Bytes

/-- `detach` drops the first attachment with these bytes. -/
def ReadOnlyState.detach (state : ReadOnlyState) (attachOpaqueData : Bytes) : ReadOnlyState :=
  match state.attachments.entries.find? fun entry => entry.2 = attachOpaqueData with
  | some (name, _) => { state with attachments := state.attachments.delete name }
  | none => state

/-- A read-only catalog of one name; its reads are left out. -/
def readOnlyBackend (name : Text) (draws : List Bytes) : Backend ReadOnlyState Unit Unit Unit where
  state := ⟨.empty, draws⟩
  catalogs := fun _ => [name]
  attach := fun state requested _ =>
    if requested ≠ name then (state, .error (notHandled requested))
    else
      match state.draws with
      | [] => (state, .error (.error (text "no random values")))
      | drawn :: rest => (⟨state.attachments.set name drawn, rest⟩, .ok ⟨drawn, ()⟩)
  catalogNameForAttach := fun _ _ => some name
  perform := fun state method attachOpaqueData _ =>
    match method with
    | .detach => (state.detach attachOpaqueData, .ok ())
    | _ => (state, .ok ())

def drawnBytes : Bytes :=
  7 :: List.replicate 15 0

def soleComposite : CompositeCatalog ReadOnlyState Unit Unit Unit :=
  ⟨[readOnlyBackend (text "example") [drawnBytes]], by decide⟩

def attachAndDetach : List (ClientStep Unit) :=
  [.attach (text "example") (), .call 0 (.method .detach ())]

/-- The composite's detach leaves the attachment in place that the catalog alone would drop. -/
theorem detach_misses_the_attachment :
    compositeRun ⟨soleComposite.backends, []⟩ attachAndDetach ≠
        directRun ⟨soleComposite.backends, []⟩ attachAndDetach ∧
      ((attachAndDetach.foldl (fun world step => (compositeStep world step).1)
        ⟨soleComposite.backends, []⟩).backends.map fun backend =>
          backend.state.attachments.entries) = [[(text "example", drawnBytes)]] ∧
      ((attachAndDetach.foldl (fun world step => (directStep world step).1)
        ⟨soleComposite.backends, []⟩).backends.map fun backend =>
          backend.state.attachments.entries) = [[]] := by
  refine ⟨fun same => ?_, by decide +kernel, by decide +kernel⟩
  have second := congrArg (fun outcomes => outcomes[1]?) same
  have composite : (compositeRun ⟨soleComposite.backends, []⟩ attachAndDetach)[1]? =
      some (.called ⟨some (0, 0 :: List.replicate 15 0), .answer (.ok ())⟩) := rfl
  have direct : (directRun ⟨soleComposite.backends, []⟩ attachAndDetach)[1]? =
      some (.called ⟨some (0, drawnBytes), .answer (.ok ())⟩) := rfl
  rw [composite, direct] at second
  injection second with called
  injection called with called
  injection called with delivered
  exact absurd delivered (by decide)

end VgiWorker.Catalog
