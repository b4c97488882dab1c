import VgiWorker.FilterPushdown.Deserialize
import VgiWorker.Js.JsonReader

/-!
# The strict JSON parser

`StrictJsonParser` reads the JSON texts with distinct member names and finite
numbers, but lets any white space of JavaScript separate tokens, and stores a
member named `__proto__` as the prototype.
-/

set_option autoImplicit false

namespace VgiWorker.FilterPushdown

open VgiWorker.Js JsonGrammar

def protoName : Text := text "__proto__"

/-- Distinct names in every object, and no number that overflows. -/
def IsStrict (tree : JsonTree) : Prop :=
  tree.Each (fun number => number.isFinite = true) List.Nodup

/-- No object has a member named `__proto__`. -/
def LacksProto (tree : JsonTree) : Prop :=
  tree.Each (fun _ => True) (protoName ∉ ·)

/-- `JSON.parse`, and the parser's verdict, on one text. -/
structure ParsesStrictly (source : Text) : Prop where
  accepts : (∃ value, parseStrictJson source = .ok value) ↔
    ∃ tree, IsText isJsonSpace tree source ∧ IsStrict tree
  agrees : ∀ value, parseStrictJson source = .ok value → readJson ecmaScript source = .ok value

private theorem parseStrictJson_ok (source : Text) (value : Json) :
    parseStrictJson source = .ok value ↔ readJson strictJson source = .ok value := by
  unfold parseStrictJson
  cases readJson strictJson source with
  | ok read => exact ⟨fun same => by cases same; rfl, fun same => by cases same; rfl⟩
  | error fault =>
      cases fault with
      | message offset message => exact ⟨nofun, nofun⟩
      | outOfFuel => exact ⟨nofun, nofun⟩

private theorem strictJson_apart : strictJson.SpacesApart := by
  intro unit isSpace
  have ranges := of_decide_eq_true isSpace
  omega

private theorem jsonSpace_widens (unit : CodeUnit) (isSpace : isJsonSpace unit = true) :
    Number.isWhiteSpace unit = true := by
  simp only [isJsonSpace, Bool.or_eq_true, beq_iff_eq] at isSpace
  rcases isSpace with ((rfl | rfl) | rfl) | rfl <;> rfl

private theorem ecmaScript_apart : ecmaScript.SpacesApart :=
  fun unit isSpace => strictJson_apart unit (jsonSpace_widens unit isSpace)

/-! ## What the two readers build -/

/-- Distinct members that are defined stay as they are. -/
private theorem assignAll_defines (dialect : Dialect) (object : List (Text × Json) × Option Json)
    (members : List (Text × Json))
    (defines : ∀ member ∈ members, ∀ object, dialect.assign object member.1 member.2 =
      defineProperty object member.1 member.2)
    (nodup : (members.map Prod.fst).Nodup)
    (fresh : ∀ name ∈ members.map Prod.fst, name ∉ object.1.map Prod.fst) :
    dialect.assignAll object members = (object.1 ++ members, object.2) := by
  induction members generalizing object with
  | nil =>
      rw [List.append_nil]
      rfl
  | cons member rest ih =>
      obtain ⟨notLater, later⟩ := List.nodup_cons.mp nodup
      have step : dialect.assignAll object (member :: rest) =
          dialect.assignAll (dialect.assign object member.1 member.2) rest := rfl
      rw [step, defines member List.mem_cons_self, defineProperty,
        setEntry_absent _ _ _ (fresh member.1 List.mem_cons_self),
        ih _ (fun other inRest => defines other (List.mem_cons_of_mem _ inRest)) later]
      · rw [List.append_assoc]
        rfl
      · intro name inRest known
        rw [List.map_append, List.mem_append] at known
        rcases known with known | here
        · exact fresh name (List.mem_cons_of_mem _ inRest) known
        · obtain rfl : name = member.1 := List.mem_singleton.mp here
          exact notLater inRest

private theorem assign_strictJson (object : List (Text × Json) × Option Json) (key : Text)
    (value : Json) (other : key ≠ protoName) :
    strictJson.assign object key value = defineProperty object key value :=
  if_neg other

/-- The parser never stores a member named `__proto__`. -/
private theorem proto_not_stored (object : List (Text × Json) × Option Json)
    (members : List (Text × Json)) (lacks : protoName ∉ object.1.map Prod.fst) :
    protoName ∉ (strictJson.assignAll object members).1.map Prod.fst := by
  induction members generalizing object with
  | nil => exact lacks
  | cons member rest ih =>
      refine ih (strictJson.assign object member.1 member.2) ?_
      by_cases isProto : member.1 = protoName
      · have kept : (strictJson.assign object member.1 member.2).1 = object.1 := by
          show (assignProperty object member.1 member.2).1 = object.1
          unfold assignProperty
          rw [if_pos (show member.1 = text "__proto__" from isProto)]
          split <;> rfl
        rwa [kept]
      · rw [assign_strictJson object member.1 member.2 isProto, defineProperty]
        intro stored
        have found := (lookupEntry_isSome (setEntry object.1 member.1 member.2) protoName).mpr stored
        rw [lookupEntry_setEntry, if_neg isProto] at found
        exact lacks ((lookupEntry_isSome object.1 protoName).mp found)

private theorem buildMembers_names (dialect : Dialect) (members : List (Text × JsonTree)) :
    (dialect.buildMembers members).map Prod.fst = members.map Prod.fst := by
  induction members with
  | nil => rfl
  | cons member rest ih =>
      obtain ⟨name, value⟩ := member
      rw [Dialect.buildMembers, List.map_cons, List.map_cons, ih]

private theorem assignAll_ecmaScript (members : List (Text × JsonTree))
    (nodup : (members.map Prod.fst).Nodup) :
    ecmaScript.assignAll ([], none) (ecmaScript.buildMembers members) =
      (ecmaScript.buildMembers members, none) :=
  assignAll_defines ecmaScript ([], none) _ (fun _ _ _ => rfl)
    (by rwa [buildMembers_names]) (fun _ _ => List.not_mem_nil)

private theorem assignAll_strictJson (members : List (Text × JsonTree))
    (nodup : (members.map Prod.fst).Nodup) (lacks : protoName ∉ members.map Prod.fst) :
    strictJson.assignAll ([], none) (strictJson.buildMembers members) =
      (strictJson.buildMembers members, none) := by
  refine assignAll_defines strictJson ([], none) _ (fun member inMembers object => ?_)
    (by rwa [buildMembers_names]) (fun _ _ => List.not_mem_nil)
  refine assign_strictJson object member.1 member.2 fun isProto => lacks ?_
  rw [← isProto, ← buildMembers_names strictJson]
  exact List.mem_map_of_mem inMembers

mutual

/-- On strict texts the two readers build the same value when no member is `__proto__`. -/
theorem build_agrees_iff (tree : JsonTree) (strict : IsStrict tree) :
    strictJson.build tree = ecmaScript.build tree ↔ LacksProto tree := by
  cases tree with
  | array elements =>
      rw [Dialect.build, Dialect.build, Json.array.injEq]
      exact buildEach_agrees_iff elements strict
  | object members =>
      obtain ⟨nodup, each⟩ := strict
      have members' := buildMembers_agrees_iff members each
      simp only [Dialect.build, assignAll_ecmaScript members nodup, Json.object.injEq]
      by_cases lacks : protoName ∈ members.map Prod.fst
      · refine iff_of_false (fun same => ?_) (fun all => all.1 lacks)
        have notStored := proto_not_stored ([], none) (strictJson.buildMembers members)
          List.not_mem_nil
        rw [same.1, buildMembers_names] at notStored
        exact notStored lacks
      · rw [assignAll_strictJson members nodup lacks, and_iff_left rfl, members']
        exact ⟨fun rest => ⟨lacks, rest⟩, fun all => all.2⟩
  | _ => exact iff_of_true rfl trivial

theorem buildEach_agrees_iff (elements : List JsonTree)
    (strict : JsonTree.EachElement (fun number => number.isFinite = true) List.Nodup elements) :
    strictJson.buildEach elements = ecmaScript.buildEach elements ↔
      JsonTree.EachElement (fun _ => True) (protoName ∉ ·) elements := by
  cases elements with
  | nil => exact iff_of_true rfl trivial
  | cons element rest =>
      rw [Dialect.buildEach, Dialect.buildEach, List.cons.injEq, build_agrees_iff element strict.1,
        buildEach_agrees_iff rest strict.2]
      exact Iff.rfl

theorem buildMembers_agrees_iff (members : List (Text × JsonTree))
    (strict : JsonTree.EachMember (fun number => number.isFinite = true) List.Nodup members) :
    strictJson.buildMembers members = ecmaScript.buildMembers members ↔
      JsonTree.EachMember (fun _ => True) (protoName ∉ ·) members := by
  cases members with
  | nil => exact iff_of_true rfl trivial
  | cons member rest =>
      obtain ⟨name, value⟩ := member
      rw [Dialect.buildMembers, Dialect.buildMembers, List.cons.injEq, Prod.mk.injEq,
        and_iff_right rfl, build_agrees_iff value strict.1, buildMembers_agrees_iff rest strict.2]
      exact Iff.rfl

end

/-! ## The parser against the grammar -/

private theorem admits_strictJson (tree : JsonTree) : strictJson.Admits tree ↔ IsStrict tree := by
  have numbers : strictJson.NumberAdmitted = fun number => number.isFinite = true :=
    funext fun number => propext ⟨fun admitted => admitted rfl, fun finite _ => finite⟩
  have names : strictJson.NamesAdmitted = List.Nodup :=
    funext fun names => propext ⟨fun admitted => admitted rfl, fun nodup _ => nodup⟩
  rw [Dialect.Admits, numbers, names]
  exact Iff.rfl

/-- The parser reads a text as the grammar and `JSON.parse` do exactly when, read with any white
space, its white space is that of JSON and no member is named `__proto__`. -/
theorem strict_json_iff (source : Text) :
    ParsesStrictly source ↔
      ∀ tree, IsText Number.isWhiteSpace tree source → IsStrict tree →
        IsText isJsonSpace tree source ∧ LacksProto tree := by
  have strictRead := strictJson.readJson_iff strictJson_apart source
  constructor
  · rintro ⟨accepts, agrees⟩ tree isText strict
    have accepted : parseStrictJson source = .ok (strictJson.build tree) :=
      (parseStrictJson_ok source _).mpr
        ((strictRead _).mpr ⟨tree, isText, (admits_strictJson tree).mpr strict, rfl⟩)
    obtain ⟨narrow, isNarrow, _⟩ := accepts.mp ⟨_, accepted⟩
    obtain rfl := isText_unique Number.isWhiteSpace strictJson_apart narrow tree source
      (spaced_widen jsonSpace_widens isNarrow) isText
    refine ⟨isNarrow, (build_agrees_iff narrow strict).mp ?_⟩
    obtain ⟨other, isOther, _, same⟩ :=
      (ecmaScript.readJson_iff ecmaScript_apart source _).mp (agrees _ accepted)
    rw [isText_unique isJsonSpace ecmaScript_apart other narrow source isOther isNarrow] at same
    exact same
  · intro condition
    constructor
    · constructor
      · rintro ⟨value, accepted⟩
        obtain ⟨tree, isText, admits, _⟩ :=
          (strictRead value).mp ((parseStrictJson_ok source value).mp accepted)
        have strict := (admits_strictJson tree).mp admits
        exact ⟨tree, (condition tree isText strict).1, strict⟩
      · rintro ⟨tree, isText, strict⟩
        exact ⟨_, (parseStrictJson_ok source _).mpr ((strictRead _).mpr
          ⟨tree, spaced_widen jsonSpace_widens isText, (admits_strictJson tree).mpr strict, rfl⟩)⟩
    · intro value accepted
      obtain ⟨tree, isText, admits, rfl⟩ :=
        (strictRead value).mp ((parseStrictJson_ok source value).mp accepted)
      have strict := (admits_strictJson tree).mp admits
      obtain ⟨narrow, lacks⟩ := condition tree isText strict
      refine (ecmaScript.readJson_iff ecmaScript_apart source _).mpr ⟨tree, narrow, ?_, ?_⟩
      · exact JsonTree.each_of_forall (fun _ => nofun) (fun _ => nofun) tree
      · exact (build_agrees_iff tree strict).mpr lacks

/-- A no-break space stands before the first text's number; the second has a member named
`__proto__`. -/
theorem strict_json_too_wide :
    ¬ ParsesStrictly [0xa0, 0x31] ∧
      ¬ ParsesStrictly (text "\x7b\"__proto__\":\x7b\x7d\x7d") := by
  constructor
  · intro parses
    have accepted : (parseStrictJson [0xa0, 0x31]).toOption.isSome = true := by decide +kernel
    have refused : (readJson ecmaScript [0xa0, 0x31]).toOption.isSome = false := by decide +kernel
    obtain ⟨value, isValue⟩ : ∃ value, parseStrictJson [0xa0, 0x31] = .ok value := by
      cases result : parseStrictJson [0xa0, 0x31] with
      | ok value => exact ⟨value, rfl⟩
      | error fault => rw [result] at accepted; cases accepted
    rw [parses.agrees value isValue] at refused
    cases refused
  · intro parses
    have stored : (parseStrictJson (text "\x7b\"__proto__\":\x7b\x7d\x7d")).toOption.map
        Json.ownKeys = some [] := by decide +kernel
    have kept : (readJson ecmaScript (text "\x7b\"__proto__\":\x7b\x7d\x7d")).toOption.map
        Json.ownKeys = some [protoName] := by decide +kernel
    cases result : parseStrictJson (text "\x7b\"__proto__\":\x7b\x7d\x7d") with
    | error fault => rw [result] at stored; cases stored
    | ok value =>
        rw [result] at stored
        rw [parses.agrees value result] at kept
        have clash := stored.symm.trans kept
        cases clash

end VgiWorker.FilterPushdown
