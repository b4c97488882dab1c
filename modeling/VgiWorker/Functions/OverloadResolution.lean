import VgiWorker.Functions.OverloadScores
import VgiWorker.Functions.RegistryScopes

/-!
# The overload that a call runs

When resolution gives a function in scope that accepts the call, and prefers exact
types.
-/

set_option autoImplicit false

namespace VgiWorker.Functions.Registry

open VgiWorker.Js VgiWorker.Arrow VgiWorker.Protocol

section

variable (object : Nat → VgiFunction)

/-- A wanted candidate is the only one with the right number of arguments, or the candidates of that
number whose types match are headed by a wanted one; where no types match it is the first
registered. -/
def Decided (args : Arguments) (context : OverloadContext) (candidates : List Nat)
    (wanted : Nat → Prop) : Prop :=
  let isScalar := isScalarCall object context candidates
  let counted := countedCandidates object args context candidates
  let scored := scoredCandidates object args context.inputSchema isScalar counted
  (∃ ref ∈ candidates, wanted ref) →
    counted.length = 1 ∨
    scored ≠ [] ∧ Outranked Prod.fst (fun entry => wanted entry.2) scored ∨
    scored = [] ∧ ∃ first, candidates.head? = some first ∧ wanted first

private theorem filterByArgumentTypes_mem (args : Arguments) (inputSchema : Option Schema)
    (isScalar : Bool) (candidates : List Nat) :
    ∀ ref ∈ filterByArgumentTypes object args inputSchema isScalar candidates, ref ∈ candidates := by
  intro ref member
  obtain ⟨entry, best, rfl⟩ := List.mem_map.mp member
  obtain ⟨source, held, isEntry⟩ := List.mem_filterMap.mp (List.mem_filter.mp best).1
  obtain ⟨score, _, rfl⟩ := Option.map_eq_some_iff.mp isEntry
  exact held

/-- The second stage, from the candidates that remain of the first. -/
private def chooseByTypes (args : Arguments) (context : OverloadContext) (isScalar : Bool)
    (candidates remaining : List Nat) : Option Nat :=
  match remaining with
  | [single] => some single
  | _ =>
      match filterByArgumentTypes object args context.inputSchema isScalar remaining with
      | first :: _ => some first
      | [] => candidates.head?

private theorem chooseByTypes_mem (args : Arguments) (context : OverloadContext) (isScalar : Bool)
    (candidates remaining : List Nat) (kept : ∀ ref ∈ remaining, ref ∈ candidates) (ref : Nat)
    (chosen : chooseByTypes object args context isScalar candidates remaining = some ref) :
    ref ∈ candidates := by
  unfold chooseByTypes at chosen
  split at chosen
  · cases chosen
    exact kept _ List.mem_cons_self
  · split at chosen
    · rename_i first _ found
      cases chosen
      exact kept _ (filterByArgumentTypes_mem object args _ _ _ _ (by
        rw [found]
        exact List.mem_cons_self))
    · exact List.mem_of_mem_head? chosen

private theorem disambiguate_many (candidates : List Nat) (context : OverloadContext)
    (args : Arguments) (isArgs : context.arguments = some args)
    (many : ∀ single, candidates ≠ [single]) :
    disambiguate object candidates context =
      chooseByTypes object args context (isScalarCall object context candidates) candidates
        (if (countedCandidates object args context candidates).isEmpty ∨
            isScalarCall object context candidates ∧
              (countedCandidates object args context candidates).length = candidates.length
          then candidates else countedCandidates object args context candidates) := by
  unfold disambiguate chooseByTypes
  rw [isArgs]
  cases candidates with
  | nil => rfl
  | cons first rest =>
      cases rest with
      | nil => exact absurd rfl (many first)
      | cons second others => rfl

private theorem remaining_eq (candidates counted : List Nat) (filter : Nat → Bool)
    (isFiltered : counted = candidates.filter filter) (filled : counted ≠ []) (isScalar : Bool) :
    (if counted.isEmpty ∨ isScalar ∧ counted.length = candidates.length then candidates
      else counted) = counted := by
  split
  · rename_i all
    rcases all with empty | ⟨_, same⟩
    · exact absurd (List.isEmpty_iff.mp empty) filled
    · rw [isFiltered] at same ⊢
      exact (List.filter_eq_self.mpr (List.length_filter_eq_length_iff.mp same)).symm
  · rfl

/-- Resolution gives a wanted candidate, of those with the right number of arguments, exactly when
the candidates are decided so. -/
private theorem disambiguate_wanted_iff (candidates : List Nat) (context : OverloadContext)
    (args : Arguments) (isArgs : context.arguments = some args) (wanted : Nat → Prop)
    (counts : ∀ ref, wanted ref → countMatches args context.inputSchema
      (isScalarCall object context candidates) (object ref) = true)
    (offered : ∃ ref ∈ candidates, wanted ref) :
    (∃ ref, disambiguate object candidates context = some ref ∧ wanted ref) ↔
      Decided object args context candidates wanted := by
  obtain ⟨source, member, isWanted⟩ := offered
  have counted : source ∈ countedCandidates object args context candidates :=
    List.mem_filter.mpr ⟨member, counts source isWanted⟩
  unfold Decided
  simp only [show (∃ ref ∈ candidates, wanted ref) from ⟨source, member, isWanted⟩, true_imp_iff]
  by_cases single : ∃ only, candidates = [only]
  · obtain ⟨only, rfl⟩ := single
    obtain rfl := List.mem_singleton.mp member
    refine iff_of_true ⟨source, by simp [disambiguate], isWanted⟩ (.inl ?_)
    have atMost : (countedCandidates object args context [source]).length ≤ 1 :=
      List.length_filter_le _ _
    have atLeast := List.length_pos_of_mem counted
    omega
  · rw [disambiguate_many object candidates context args isArgs
      fun only same => single ⟨only, same⟩]
    rw [remaining_eq candidates (countedCandidates object args context candidates) _ rfl
      (List.ne_nil_of_mem counted)]
    unfold chooseByTypes
    split
    · rename_i only isOnly
      rw [isOnly] at counted ⊢
      obtain rfl := List.mem_singleton.mp counted
      exact iff_of_true ⟨source, rfl, isWanted⟩ (.inl rfl)
    · rename_i many
      have notSingle : (countedCandidates object args context candidates).length ≠ 1 := by
        intro one
        obtain ⟨only, isOnly⟩ := List.length_eq_one_iff.mp one
        exact many only isOnly
      unfold filterByArgumentTypes
      cases best : (bestOf Prod.fst (scoredCandidates object args context.inputSchema
          (isScalarCall object context candidates)
          (countedCandidates object args context candidates))) with
      | nil =>
          have none := (bestOf_eq_nil_iff _ _).mp best
          simp [none, notSingle]
      | cons first rest =>
          have filled : scoredCandidates object args context.inputSchema
              (isScalarCall object context candidates)
              (countedCandidates object args context candidates) ≠ [] := by
            intro none
            rw [(bestOf_eq_nil_iff _ _).mpr none] at best
            cases best
          have holds := head?_bestOf_holds_iff Prod.fst (fun entry => wanted entry.2) _ first
            (by rw [best]; rfl)
          simp only [List.map_cons, Option.some.injEq, exists_eq_left', notSingle, false_or]
          simpa [filled] using holds

private theorem disambiguate_mem (candidates : List Nat) (context : OverloadContext)
    (args : Arguments) (isArgs : context.arguments = some args) (ref : Nat)
    (chosen : disambiguate object candidates context = some ref) : ref ∈ candidates := by
  by_cases single : ∃ only, candidates = [only]
  · obtain ⟨only, rfl⟩ := single
    simp only [disambiguate] at chosen
    cases chosen
    exact List.mem_cons_self
  · rw [disambiguate_many object candidates context args isArgs
      fun only same => single ⟨only, same⟩] at chosen
    refine chooseByTypes_mem object args context _ candidates _ (fun other member => ?_) ref chosen
    split at member
    · exact member
    · exact (List.mem_filter.mp member).1

end

section

variable (toLowerCase : Text → Text) (object : Nat → VgiFunction)

/-- The kind of call that resolution takes it for. -/
def callIsScalar (registry : FunctionRegistry) (name : Text) (context : OverloadContext) : Bool :=
  match scopedCandidates toLowerCase registry name context with
  | .ok candidates => isScalarCall object context candidates
  | .error _ => false

/-- A function in scope whose parameters take the call. -/
def AcceptsCall (takes : ArgumentSpec → DataType → Prop) (log : List Registration)
    (registry : FunctionRegistry) (name : Text) (context : OverloadContext) (args : Arguments)
    (ref : Nat) : Prop :=
  InScope toLowerCase object log name context ref ∧
  Accepts takes args context.inputSchema (callIsScalar toLowerCase object registry name context)
    (object ref)

/-- A call that some function in scope accepts runs such a function, one that accepts it with exact
types where there is one, and a call that names a schema runs no function of another schema. -/
structure Respects (log : List Registration) (registry : FunctionRegistry) (name : Text)
    (context : OverloadContext) (args : Arguments) (outcome : Except RegistryFault Nat) : Prop where
  accepted : (∃ ref, AcceptsCall toLowerCase object Takes log registry name context args ref) →
    ∃ ref, outcome = .ok ref ∧
      AcceptsCall toLowerCase object Takes log registry name context args ref
  exact : (∃ ref, AcceptsCall toLowerCase object TakesExactly log registry name context args ref) →
    ∃ ref, outcome = .ok ref ∧
      AcceptsCall toLowerCase object TakesExactly log registry name context args ref
  schema : ∀ path ref, context.schemaPath = some path → outcome = .ok ref →
    DeclaredIn toLowerCase log path ref ∨
      ∀ declared catalogName, .registerInSchema ref declared catalogName ∉ log

private theorem inScope_schema (log : List Registration) (name : Text) (context : OverloadContext)
    (path : List Text) (isPath : context.schemaPath = some path) (ref : Nat)
    (isIn : InScope toLowerCase object log name context ref) :
    DeclaredIn toLowerCase log path ref ∨
      ∀ declared catalogName, .registerInSchema ref declared catalogName ∉ log := by
  rw [InScope, isPath] at isIn
  obtain ⟨named, _, inCatalog | ⟨_, declared⟩ | ⟨undeclared, _⟩⟩ := isIn
  · obtain ⟨_, _, _, declared, catalogName, _, member, _, same⟩ := inCatalog
    exact .inl ⟨declared, some catalogName, member, same⟩
  · exact .inl declared
  · exact .inr fun declared catalogName => undeclared ref declared catalogName named

private theorem get_eq (registry : FunctionRegistry) (name : Text) (context : OverloadContext)
    (candidates : List Nat)
    (inScope : scopedCandidates toLowerCase registry name context = .ok candidates) (ref : Nat) :
    get toLowerCase object registry name context = .ok ref ↔
      disambiguate object candidates context = some ref := by
  rw [get, inScope, except_ok_bind]
  cases disambiguate object candidates context with
  | none => exact ⟨nofun, nofun⟩
  | some chosen =>
      simp only [Except.ok.injEq, Option.some.injEq]

/-- Resolution gives an accepting function exactly when the candidates are decided so. -/
private theorem get_wanted_iff (takes : ArgumentSpec → DataType → Prop) (log : List Registration)
    (registry : FunctionRegistry) (name : Text) (context : OverloadContext) (args : Arguments)
    (isArgs : context.arguments = some args) (candidates : List Nat)
    (inScope : scopedCandidates toLowerCase registry name context = .ok candidates)
    (members : ∀ ref, ref ∈ candidates ↔ InScope toLowerCase object log name context ref) :
    ((∃ ref, AcceptsCall toLowerCase object takes log registry name context args ref) →
      ∃ ref, get toLowerCase object registry name context = .ok ref ∧
        AcceptsCall toLowerCase object takes log registry name context args ref) ↔
      Decided object args context candidates
        (AcceptsCall toLowerCase object takes log registry name context args) := by
  have isScalar : callIsScalar toLowerCase object registry name context =
      isScalarCall object context candidates := by
    rw [callIsScalar, inScope]
  by_cases offered : ∃ ref ∈ candidates,
      AcceptsCall toLowerCase object takes log registry name context args ref
  · have counts (ref : Nat)
        (wanted : AcceptsCall toLowerCase object takes log registry name context args ref) :
        countMatches args context.inputSchema (isScalarCall object context candidates)
          (object ref) = true := by
      have := wanted.2.1
      rwa [isScalar] at this
    rw [← disambiguate_wanted_iff object candidates context args isArgs _ counts offered]
    simp only [get_eq toLowerCase object registry name context candidates inScope]
    obtain ⟨ref, _, wanted⟩ := offered
    exact ⟨fun resolves => resolves ⟨ref, wanted⟩, fun resolves _ => resolves⟩
  · refine iff_of_true (fun ⟨ref, wanted⟩ => ?_) (fun found => absurd found offered)
    exact absurd ⟨ref, (members ref).mpr wanted.1, wanted⟩ offered

private theorem scored_entry (args : Arguments) (context : OverloadContext) (candidates : List Nat)
    (score ref : Nat) :
    (score, ref) ∈ scoredCandidates object args context.inputSchema false
        (candidates.filter fun other => countMatches args context.inputSchema false (object other)) ↔
      ref ∈ candidates ∧ countMatches args context.inputSchema false (object ref) = true ∧
        typeScore args context.inputSchema false (object ref) = some score := by
  simp only [scoredCandidates, List.mem_filterMap, List.mem_filter, Option.map_eq_some_iff,
    Prod.mk.injEq]
  constructor
  · rintro ⟨source, ⟨member, counts⟩, found, isScore, rfl, rfl⟩
    exact ⟨member, counts, isScore⟩
  · rintro ⟨member, counts, isScore⟩
    exact ⟨ref, ⟨member, counts⟩, score, isScore, rfl, rfl⟩

/-- Among table functions that take their arguments from the call, the accepting ones head the
candidates: the others drop out at one of the stages, and exact types score highest. -/
private theorem table_decided (log : List Registration) (registry : FunctionRegistry) (name : Text)
    (context : OverloadContext) (args : Arguments) (candidates : List Nat)
    (inScope : scopedCandidates toLowerCase registry name context = .ok candidates)
    (members : ∀ ref, ref ∈ candidates ↔ InScope toLowerCase object log name context ref)
    (table : callIsScalar toLowerCase object registry name context = false)
    (plain : ∀ ref ∈ candidates, (object ref).inputFromArgs = false) :
    Decided object args context candidates
        (AcceptsCall toLowerCase object Takes log registry name context args) ∧
      Decided object args context candidates
        (AcceptsCall toLowerCase object TakesExactly log registry name context args) := by
  have isTable : isScalarCall object context candidates = false := by
    rw [callIsScalar, inScope] at table
    exact table
  unfold Decided AcceptsCall countedCandidates
  rw [isTable, table]
  dsimp only
  -- A scored candidate accepts the call, and one that accepts is scored.
  have accepts (score ref : Nat)
      (entry : (score, ref) ∈ scoredCandidates object args context.inputSchema false
        (candidates.filter fun other => countMatches args context.inputSchema false (object other))) :
      InScope toLowerCase object log name context ref ∧
        Accepts Takes args context.inputSchema false (object ref) := by
    obtain ⟨member, counts, isScore⟩ := (scored_entry object args context candidates _ _).mp entry
    exact ⟨(members ref).mp member,
      (accepts_table_iff args _ _ (plain ref member) counts).mpr ⟨score, isScore⟩⟩
  have scores (ref : Nat) (member : ref ∈ candidates)
      (accepted : Accepts Takes args context.inputSchema false (object ref)) :
      ∃ score, (score, ref) ∈ scoredCandidates object args context.inputSchema false
        (candidates.filter fun other => countMatches args context.inputSchema false (object other)) := by
    obtain ⟨score, isScore⟩ :=
      (accepts_table_iff args _ _ (plain ref member) accepted.1).mp accepted
    exact ⟨score, (scored_entry object args context candidates _ _).mpr
      ⟨member, accepted.1, isScore⟩⟩
  constructor
  · rintro ⟨ref, member, _, accepted⟩
    obtain ⟨score, entry⟩ := scores ref member accepted
    refine .inr (.inl ⟨List.ne_nil_of_mem entry, fun place item here fails => ?_⟩)
    exact absurd (accepts item.1 item.2 (List.mem_of_getElem? here)) fails
  · rintro ⟨ref, member, inScopeRef, exact⟩
    have accepted := accepts_of_exactly args _ _ _ exact
    obtain ⟨score, entry⟩ := scores ref member accepted
    refine .inr (.inl ⟨List.ne_nil_of_mem entry, fun place item here fails => ?_⟩)
    obtain ⟨other, there⟩ := List.mem_iff_getElem?.mp entry
    refine ⟨other, (score, ref), there, ⟨inScopeRef, exact⟩, .inl ?_⟩
    obtain ⟨_, _, isScore⟩ := (scored_entry object args context candidates _ _).mp entry
    obtain ⟨itemMember, itemCounts, itemScore⟩ :=
      (scored_entry object args context candidates item.1 item.2).mp (List.mem_of_getElem? here)
    have most := (accepts_exactly_table_iff args _ _ (plain ref member) accepted.1 score isScore).2
    obtain ⟨atMost, itemMost⟩ := accepts_exactly_table_iff args _ _ (plain item.2 itemMember)
      itemCounts item.1 itemScore
    have notMost : item.1 ≠ exactMatchScore * knownTypes (argumentTypes args) :=
      fun same => fails ⟨(members item.2).mp itemMember, itemMost.mpr same⟩
    rw [most.mp exact]
    exact lt_of_le_of_ne atMost notMost

/-- Over every registry: resolution respects the arguments of a call exactly when the candidates in
scope are decided by functions that accept it, and by those that accept it with exact types; and a
table call does wherever no candidate is blended. -/
theorem resolution_respects_iff (log : List Registration) (registry : FunctionRegistry)
    (built : build toLowerCase object log = .ok registry) (name : Text) (context : OverloadContext)
    (plain : PlainNames toLowerCase object log name context) (args : Arguments)
    (isArgs : context.arguments = some args) :
    (Respects toLowerCase object log registry name context args
        (get toLowerCase object registry name context) ↔
      ∀ candidates, scopedCandidates toLowerCase registry name context = .ok candidates →
        Decided object args context candidates
          (AcceptsCall toLowerCase object Takes log registry name context args) ∧
        Decided object args context candidates
          (AcceptsCall toLowerCase object TakesExactly log registry name context args)) ∧
    (callIsScalar toLowerCase object registry name context = false →
      (∀ ref, InScope toLowerCase object log name context ref →
        (object ref).inputFromArgs = false) →
      Respects toLowerCase object log registry name context args
        (get toLowerCase object registry name context)) := by
  rcases scopedCandidates_spec toLowerCase object log registry built name context plain with
    ⟨candidates, inScope, _, members⟩ | ⟨⟨fault, failed⟩, none⟩
  · have decided (takes : ArgumentSpec → DataType → Prop) :=
      get_wanted_iff toLowerCase object takes log registry name context args isArgs candidates inScope
        members
    have schemas (path : List Text) (ref : Nat) (isPath : context.schemaPath = some path)
        (resolved : get toLowerCase object registry name context = .ok ref) :
        DeclaredIn toLowerCase log path ref ∨
          ∀ declared catalogName, .registerInSchema ref declared catalogName ∉ log := by
      have chosen :=
        (get_eq toLowerCase object registry name context candidates inScope ref).mp resolved
      exact inScope_schema toLowerCase object log name context path isPath ref
        ((members ref).mp (disambiguate_mem object candidates context args isArgs ref chosen))
    refine ⟨⟨?_, fun all => ?_⟩, fun table blended => ?_⟩
    · rintro ⟨accepted, exact, _⟩ others found
      cases inScope.symm.trans found
      exact ⟨(decided Takes).mp accepted, (decided TakesExactly).mp exact⟩
    · obtain ⟨accepted, exact⟩ := all candidates inScope
      exact ⟨(decided Takes).mpr accepted, (decided TakesExactly).mpr exact, schemas⟩
    · obtain ⟨accepted, exact⟩ := table_decided toLowerCase object log registry name context args
        candidates inScope members table fun ref member => blended ref ((members ref).mp member)
      exact ⟨(decided Takes).mpr accepted, (decided TakesExactly).mpr exact, schemas⟩
  · have vacuous : Respects toLowerCase object log registry name context args
        (get toLowerCase object registry name context) := by
      refine ⟨?_, ?_, fun path ref _ resolved => ?_⟩
      · exact fun ⟨ref, wanted⟩ => absurd wanted.1 (none ref)
      · exact fun ⟨ref, wanted⟩ => absurd wanted.1 (none ref)
      · rw [get, failed] at resolved
        cases resolved
    exact ⟨iff_of_true vacuous fun candidates found => (nomatch failed.symm.trans found),
      fun _ _ => vacuous⟩

end

private def parameter (index : Nat) (type : DataType) : ArgumentSpec :=
  ⟨.index index, type, false, false, false, false⟩

/-- A table function of a wide and of a narrow integer, a scalar of two integers and of one. -/
private def overloads : Nat → VgiFunction
  | 0 => ⟨text "scan", text "table", false, [parameter 0 (.int 64 true)]⟩
  | 1 => ⟨text "scan", text "table", false, [parameter 0 (.int 32 true)]⟩
  | 2 => ⟨text "add", text "scalar", false,
      [parameter 0 (.int 32 true), parameter 1 (.int 32 true)]⟩
  | _ => ⟨text "add", text "scalar", false, [parameter 0 (.int 32 true)]⟩

private def overloadLog : List Registration :=
  [.register 0, .registerInSchema 0 [text "main"] (some (text "c")), .register 1,
    .registerInSchema 1 [text "main"] (some (text "c")), .register 2, .register 3]

private def scanArguments : Arguments :=
  ⟨[.number (Number.ofNat 7)], .empty,
    some ⟨[⟨text "positional_0", .int 32 true, true, .empty⟩], .empty⟩⟩

private def scanCall : OverloadContext :=
  ⟨some scanArguments, none, some false, some [text "main"], some (text "c")⟩

theorem resolution_respects_sample : ∃ registry, build id overloads overloadLog = .ok registry ∧
    Respects id overloads overloadLog registry (text "scan") scanCall scanArguments
      (get id overloads registry (text "scan") scanCall) := by
  have plain : PlainNames id overloads overloadLog (text "scan") scanCall := by
    refine ⟨by decide +kernel, fun ref path catalogName member => ?_, fun path isPath => ?_,
      fun ref path catalogName member => ?_, fun catalogName isCatalog => ?_,
      fun ref path catalogName member => ?_⟩
    · simp only [overloadLog, List.mem_cons, List.not_mem_nil, or_false, reduceCtorEq, false_or,
        Registration.registerInSchema.injEq] at member
      rcases member with ⟨rfl, _⟩ | ⟨rfl, _⟩ <;> decide +kernel
    · cases isPath
      decide +kernel
    · simp only [overloadLog, List.mem_cons, List.not_mem_nil, or_false, reduceCtorEq, false_or,
        Registration.registerInSchema.injEq] at member
      rcases member with ⟨_, rfl, _⟩ | ⟨_, rfl, _⟩ <;> decide +kernel
    · cases isCatalog
      decide +kernel
    · simp only [overloadLog, List.mem_cons, List.not_mem_nil, or_false, reduceCtorEq, false_or,
        Registration.registerInSchema.injEq, Option.some.injEq] at member
      rcases member with ⟨_, _, rfl⟩ | ⟨_, _, rfl⟩ <;> decide +kernel
  refine ⟨_, rfl, (resolution_respects_iff id overloads overloadLog _ rfl (text "scan") scanCall plain
    scanArguments rfl).2 rfl fun ref _ => ?_⟩
  match ref with
  | 0 | 1 | 2 | _ + 3 => rfl

private def addCall : OverloadContext :=
  ⟨some Arguments.empty, some ⟨[⟨text "x", .int 32 true, true, .empty⟩], .empty⟩, some true, none,
    none⟩

/-- A scalar of two columns runs a call with one, though an overload takes it. -/
theorem column_count_ignored : ∃ registry, build id overloads overloadLog = .ok registry ∧
    get id overloads registry (text "add") addCall = .ok 2 ∧
    AcceptsCall id overloads Takes overloadLog registry (text "add") addCall Arguments.empty 3 ∧
    ¬ AcceptsCall id overloads Takes overloadLog registry (text "add") addCall Arguments.empty 2 := by
  refine ⟨_, rfl, rfl, ⟨⟨rfl, by simp [overloadLog, addCall]⟩, by decide +kernel, nofun, ?_⟩, ?_⟩
  · rintro _ ⟨⟩
    refine ⟨by decide +kernel, fun index actual here => ?_⟩
    cases index with
    | zero =>
        cases here
        exact ⟨parameter 0 (.int 32 true), rfl, .inr (by decide +kernel)⟩
    | succ index => simp [fieldTypes] at here
  · rintro ⟨_, _, _, columns⟩
    have counts := (columns _ rfl).1
    revert counts
    decide +kernel

end VgiWorker.Functions.Registry
