import VgiWorker.Arrow.SignatureReading

/-!
# Faithful signatures

Two types have one signature exactly when they show the same structure, as long as their
names and timezones can be told from what stands around them.
-/

set_option autoImplicit false

namespace VgiWorker.Arrow.Library

open VgiWorker.Js

/-- The kind as far as a signature shows it: neither whether a map's keys are sorted nor
the type codes of a union are in it. -/
def NestKind.shown : NestKind → NestKind
  | .union mode _ => .union mode []
  | .map _ => .map false
  | kind => kind

mutual

/-- The structure of a type as far as its signature shows it. -/
def shown : ArrowType → ArrowType
  | .leaf type => .leaf type.shown
  | .nested kind children => .nested kind.shown (showns children)
  | .dictionary _ dictionary indices ordered =>
      .dictionary 0 (shown dictionary) (shown indices) ordered

def showns : List (FieldOf ArrowType) → List (FieldOf ArrowType)
  | [] => []
  | ⟨name, type, _, _⟩ :: rest => ⟨name, shown type, true, .empty⟩ :: showns rest

end

/-! ## Readable names -/

/-- A text that begins as a signature does, up to where names come in. -/
inductive BeginsType : Text → Prop where
  | leaf (type : LeafType) (stop : CodeUnit) (rest : Text) :
      (∀ unit timezone, type ≠ .timestamp unit timezone) → stop ∈ stops →
      BeginsType (type.signature ++ stop :: rest)
  | timestamp (unit : TimeUnit) (rest : Text) :
      BeginsType (text "ts[" ++ Number.decimal unit.code ++ 0x2c :: rest)
  | nested (kind : NestKind) (rest : Text) : BeginsType (kind.opening ++ rest)
  | dictionary (rest : Text) : BeginsType (text "dict(" ++ rest)

/-- A name that does not begin with its parent's closing bracket, and in which no type
begins behind a colon. -/
structure ReadableName (closing : CodeUnit) (name : Text) : Prop where
  opens : ∀ unit ∈ name.head?, unit ≠ closing
  colons : ∀ before after, name = before ++ 0x3a :: after → ¬BeginsType after

def NestKind.closingUnit : NestKind → CodeUnit
  | .fixedSizeList _ | .union _ _ => 0x29
  | _ => 0x3e

theorem NestKind.closing_eq (kind : NestKind) : kind.closing = [kind.closingUnit] := by
  cases kind <;> rfl

mutual

/-- Every name and every timezone of the type can be told from the text around it. -/
def Readable : ArrowType → Prop
  | .leaf type => type.Readable
  | .nested kind children => ReadableFields kind.closingUnit children
  | .dictionary _ dictionary indices _ => Readable dictionary ∧ Readable indices

def ReadableFields (closing : CodeUnit) : List (FieldOf ArrowType) → Prop
  | [] => True
  | ⟨name, type, _, _⟩ :: rest =>
      ReadableName closing name ∧ Readable type ∧ ReadableFields closing rest

end

/-! ## Where a name ends -/

private theorem colon_free_decimal (value : Nat) : (0x3a : CodeUnit) ∉ Number.decimal value :=
  fun member => absurd (Number.mem_decimal value 0x3a member).2 (by decide)

private theorem colon_free_leaf (type : LeafType)
    (plain : ∀ unit timezone, type ≠ .timestamp unit timezone) :
    (0x3a : CodeUnit) ∉ type.signature := by
  have digits := colon_free_decimal
  cases type with
  | timestamp unit timezone => exact absurd rfl (plain unit timezone)
  | int bitWidth signed =>
      cases signed <;> simp only [LeafType.signature, List.mem_append, digits, or_false] <;> decide
  | decimal bitWidth precision scale =>
      have scales : (0x3a : CodeUnit) ∉ Number.decimalInt scale := by
        rw [Number.decimalInt]
        split
        · rw [List.mem_append, not_or]
          exact ⟨by decide, digits _⟩
        · exact digits _
      simp only [LeafType.signature, List.mem_append, digits, scales, or_false]
      decide
  | null | binary | utf8 | bool | largeBinary | largeUtf8 | binaryView | utf8View =>
      simp only [LeafType.signature]
      decide
  | _ =>
      simp only [LeafType.signature, List.mem_append, digits, or_false]
      decide

private theorem colon_free_opening (kind : NestKind) : (0x3a : CodeUnit) ∉ kind.opening := by
  have digits := colon_free_decimal
  cases kind with
  | fixedSizeList | union =>
      simp only [NestKind.opening, List.mem_append, digits, or_false]
      decide
  | _ =>
      simp only [NestKind.opening]
      decide

/-- What has no colon in it and comes first is there before the colon. -/
private theorem before_colon (head rest before after : Text) (free : (0x3a : CodeUnit) ∉ head)
    (same : head ++ rest = before ++ 0x3a :: after) : ∃ more, before = head ++ more := by
  induction head generalizing before with
  | nil => exact ⟨before, rfl⟩
  | cons unit units ih =>
      rw [List.mem_cons, not_or] at free
      cases before with
      | nil => exact absurd (List.cons.inj same).1.symm free.1
      | cons first others =>
          obtain ⟨here, later⟩ := List.cons.inj same
          obtain ⟨more, rfl⟩ := ih others free.2 later
          exact ⟨more, by rw [here]; rfl⟩

private theorem begins_before_colon (before after : Text)
    (begins : BeginsType (before ++ 0x3a :: after)) : BeginsType before := by
  generalize whole : before ++ 0x3a :: after = input at begins
  cases begins with
  | leaf type stop rest plain member =>
      have free : (0x3a : CodeUnit) ∉ type.signature ++ [stop] := by
        rw [List.mem_append, not_or, List.mem_singleton]
        refine ⟨colon_free_leaf type plain, ?_⟩
        rintro rfl
        exact absurd member (by decide)
      obtain ⟨more, rfl⟩ := before_colon (type.signature ++ [stop]) rest before after free
        (by rw [whole, List.append_assoc]; rfl)
      rw [List.append_assoc]
      exact .leaf type stop more plain member
  | timestamp unit rest =>
      have free : (0x3a : CodeUnit) ∉ text "ts[" ++ Number.decimal unit.code ++ [0x2c] := by
        simp only [List.mem_append, colon_free_decimal, or_false]
        decide
      obtain ⟨more, rfl⟩ := before_colon _ rest before after free
        (by rw [whole, List.append_assoc]; rfl)
      rw [List.append_assoc]
      exact .timestamp unit more
  | nested kind rest =>
      obtain ⟨more, rfl⟩ := before_colon _ rest before after (colon_free_opening kind) whole.symm
      exact .nested kind more
  | dictionary rest =>
      obtain ⟨more, rfl⟩ := before_colon (text "dict(") rest before after (by decide) whole.symm
      exact .dictionary more

private theorem name_early (name other rest rest' : Text)
    (readable : ∀ before after, other = before ++ 0x3a :: after → ¬BeginsType after)
    (begins : BeginsType rest) (shorter : name.length < other.length)
    (same : name ++ 0x3a :: rest = other ++ 0x3a :: rest') : False := by
  have isPrefix : name <+: other :=
    List.prefix_of_prefix_length_le ⟨0x3a :: rest, same⟩ ⟨0x3a :: rest', rfl⟩ shorter.le
  obtain ⟨after, rfl⟩ := isPrefix
  rw [List.append_assoc] at same
  have tails := List.append_cancel_left same
  cases after with
  | nil => simp at shorter
  | cons first after =>
      obtain ⟨rfl, behind⟩ := List.cons.inj tails
      refine readable name after rfl (begins_before_colon after rest' ?_)
      have moved : rest = after ++ 0x3a :: rest' := behind
      rwa [← moved]

/-- A name is read up to the colon behind which its type begins. -/
theorem name_cut (closing : CodeUnit) (name other rest rest' : Text)
    (readable : ReadableName closing name) (readable' : ReadableName closing other)
    (begins : BeginsType rest) (begins' : BeginsType rest')
    (same : name ++ 0x3a :: rest = other ++ 0x3a :: rest') : name = other ∧ rest = rest' := by
  rcases Nat.lt_trichotomy name.length other.length with less | equal | greater
  · exact (name_early name other rest rest' readable'.colons begins less same).elim
  · obtain ⟨names, rests⟩ := List.append_inj same equal
    exact ⟨names, (List.cons.inj rests).2⟩
  · exact (name_early other name rest' rest readable.colons begins' greater same.symm).elim

/-! ## Which type a signature is of -/

def ArrowType.typeId : ArrowType → Int
  | .leaf type => type.typeId
  | .nested kind _ => kind.typeId
  | .dictionary _ _ _ _ => -1

private theorem signature_begins (type : ArrowType) (rest : Text) (stopped : Stops rest) :
    ∃ kind stem body, signature type ++ rest = stem ++ body ∧ Run kind stem body ∧
      readStem stem = some type.typeId := by
  cases type with
  | leaf type =>
      refine ⟨_, type.stem, type.body ++ rest, ?_, type.stem_run rest stopped,
        type.readStem_stem⟩
      rw [signature, type.signature_eq, List.append_assoc]
  | nested kind children =>
      refine ⟨_, kind.stem, kind.body ++ (signatures children ++ kind.closing ++ rest), ?_,
        kind.stem_run _, kind.readStem_stem⟩
      rw [signature, kind.opening_eq]
      simp only [List.append_assoc]
  | dictionary id dictionary indices ordered =>
      exact ⟨.letter, text "dict", _, rfl, dictionary_run _, rfl⟩

private theorem same_id (left right : ArrowType) (rest rest' : Text) (stopped : Stops rest)
    (stopped' : Stops rest') (same : signature left ++ rest = signature right ++ rest') :
    left.typeId = right.typeId := by
  obtain ⟨_, stem, body, leftEq, leftRun, leftRead⟩ := signature_begins left rest stopped
  obtain ⟨_, stem', body', rightEq, rightRun, rightRead⟩ := signature_begins right rest' stopped'
  rw [leftEq, rightEq] at same
  obtain ⟨stems, _⟩ := run_inj _ _ _ _ _ _ leftRun rightRun same
  rw [stems, rightRead] at leftRead
  exact (Option.some.inj leftRead).symm

private theorem leaf_id_ne (type : LeafType) (kind : NestKind) : type.typeId ≠ kind.typeId := by
  cases kind <;> cases type <;> simp [LeafType.typeId, NestKind.typeId]

private theorem dictionary_id_ne (type : LeafType) (kind : NestKind) :
    type.typeId ≠ -1 ∧ kind.typeId ≠ -1 := by
  constructor
  · cases type <;> simp [LeafType.typeId]
  · cases kind <;> simp [NestKind.typeId]

private theorem unionMode_code (left right : UnionMode) (same : left.code = right.code) :
    left = right := by
  cases left <;> cases right <;> first | rfl | cases same

private theorem opening_cut (left right : NestKind) (rest rest' : Text)
    (ids : left.typeId = right.typeId) (same : left.opening ++ rest = right.opening ++ rest') :
    left.shown = right.shown ∧ left.closing = right.closing ∧
      left.closingUnit = right.closingUnit ∧ rest = rest' := by
  cases left with
  | fixedSizeList listSize =>
      cases right with
      | fixedSizeList other =>
          simp only [NestKind.opening, List.append_assoc] at same
          obtain ⟨rfl, rests⟩ := decimal_delimited 0x2c _ _ rest rest' (by decide)
            (List.append_cancel_left same)
          exact ⟨rfl, rfl, rfl, rests⟩
      | _ => cases ids
  | union mode typeIds =>
      cases right with
      | union other typeIds' =>
          simp only [NestKind.opening, List.append_assoc] at same
          obtain ⟨codes, rests⟩ := decimal_delimited 0x2c _ _ rest rest' (by decide)
            (List.append_cancel_left same)
          rw [unionMode_code _ _ codes]
          exact ⟨rfl, rfl, rfl, rests⟩
      | _ => cases ids
  | list => cases right with
      | list => exact ⟨rfl, rfl, rfl, List.append_cancel_left same⟩
      | _ => cases ids
  | struct => cases right with
      | struct => exact ⟨rfl, rfl, rfl, List.append_cancel_left same⟩
      | _ => cases ids
  | map keysSorted => cases right with
      | map keysSorted' => exact ⟨rfl, rfl, rfl, List.append_cancel_left same⟩
      | _ => cases ids
  | largeList => cases right with
      | largeList => exact ⟨rfl, rfl, rfl, List.append_cancel_left same⟩
      | _ => cases ids
  | runEndEncoded => cases right with
      | runEndEncoded => exact ⟨rfl, rfl, rfl, List.append_cancel_left same⟩
      | _ => cases ids
  | listView => cases right with
      | listView => exact ⟨rfl, rfl, rfl, List.append_cancel_left same⟩
      | _ => cases ids
  | largeListView => cases right with
      | largeListView => exact ⟨rfl, rfl, rfl, List.append_cancel_left same⟩
      | _ => cases ids

/-! ## Reading a whole signature -/

private theorem begins_signature (type : ArrowType) (stop : CodeUnit) (rest : Text)
    (member : stop ∈ stops) : BeginsType (signature type ++ stop :: rest) := by
  cases type with
  | leaf type =>
      rw [signature]
      cases type with
      | timestamp unit timezone =>
          simp only [LeafType.signature, List.append_assoc]
          exact .timestamp unit _
      | _ => exact .leaf _ stop rest (fun _ _ => LeafType.noConfusion) member
  | nested kind children =>
      rw [signature]
      simp only [List.append_assoc]
      exact .nested kind _
  | dictionary id dictionary indices ordered =>
      rw [signature]
      simp only [List.append_assoc]
      exact .dictionary _

/-- What stands behind the first child. -/
private def more (rest : List (FieldOf ArrowType)) : Text :=
  if rest.isEmpty then [] else text "," ++ signatures rest

private theorem signatures_cons (child : FieldOf ArrowType) (rest : List (FieldOf ArrowType)) :
    signatures (child :: rest) = fieldSignature child ++ more rest := by
  cases rest with
  | nil => exact (List.append_nil _).symm
  | cons second others =>
      rw [signatures, more, List.append_assoc]
      · rfl
      · exact List.cons_ne_nil second others

private theorem more_stops (closing : CodeUnit) (member : closing ∈ stops)
    (children : List (FieldOf ArrowType)) (rest : Text) :
    ∃ stop others, more children ++ closing :: rest = stop :: others ∧ stop ∈ stops := by
  cases children with
  | nil => exact ⟨closing, rest, rfl, member⟩
  | cons child others => exact ⟨0x2c, _, rfl, by decide⟩

private theorem stops_cons (stop : CodeUnit) (rest : Text) (member : stop ∈ stops) :
    Stops (stop :: rest) := by
  intro unit first
  cases first
  exact member

private theorem closing_stop (kind : NestKind) :
    kind.closingUnit ∈ stops ∧ kind.closingUnit ≠ 0x2c := by
  cases kind <;> simp [NestKind.closingUnit, stops]

private theorem ordered_cut (ordered ordered' : Bool) (rest rest' : Text)
    (same : orderedText ordered ++ rest = orderedText ordered' ++ rest') :
    ordered = ordered' ∧ rest = rest' := by
  cases ordered <;> cases ordered'
  · exact ⟨rfl, List.append_cancel_left same⟩
  · cases (List.cons.inj same).1
  · cases (List.cons.inj same).1
  · exact ⟨rfl, List.append_cancel_left same⟩

mutual

/-- Readable types are cut off alike only where they show the same structure. -/
theorem signature_cut : (left right : ArrowType) → (rest rest' : Text) → Readable left →
    Readable right → Stops rest → Stops rest' →
    signature left ++ rest = signature right ++ rest' → shown left = shown right ∧ rest = rest'
  | .leaf left, right, rest, rest', readable, readable', stopped, stopped', same => by
      have ids := same_id _ _ rest rest' stopped stopped' same
      cases right with
      | leaf right =>
          obtain ⟨types, rests⟩ := leaf_cut left right rest rest' stopped stopped' readable
            readable' same
          exact ⟨by rw [shown, shown, types], rests⟩
      | nested kind children => exact absurd ids (leaf_id_ne left kind)
      | dictionary => exact absurd ids (dictionary_id_ne left .list).1
  | .nested kind children, right, rest, rest', readable, readable', stopped, stopped', same => by
      have ids := same_id _ _ rest rest' stopped stopped' same
      cases right with
      | leaf right => exact absurd ids.symm (leaf_id_ne right kind)
      | nested kind' children' =>
          simp only [signature, List.append_assoc] at same
          obtain ⟨kinds, closings, units, behind⟩ := opening_cut kind kind' _ _ ids same
          simp only [← closings, kind.closing_eq, List.singleton_append] at behind
          simp only [Readable, ← units] at readable'
          obtain ⟨fields, rests⟩ := signatures_cut children children' kind.closingUnit rest rest'
            (closing_stop kind).1 (closing_stop kind).2 readable readable' behind
          exact ⟨by rw [shown, shown, kinds, fields], rests⟩
      | dictionary => exact absurd ids (dictionary_id_ne .null kind).2
  | .dictionary id dictionary indices ordered, right, rest, rest', readable, readable', stopped,
      stopped', same => by
      have ids := same_id _ _ rest rest' stopped stopped' same
      cases right with
      | leaf right => exact absurd ids.symm (dictionary_id_ne right .list).1
      | nested kind children => exact absurd ids.symm (dictionary_id_ne .null kind).2
      | dictionary id' dictionary' indices' ordered' =>
          simp only [signature, List.append_assoc] at same
          obtain ⟨dictionaries, behind⟩ := signature_cut dictionary dictionary' _ _ readable.1
            readable'.1 (stops_cons 0x2c _ (by decide)) (stops_cons 0x2c _ (by decide))
            (List.append_cancel_left same)
          obtain ⟨allIndices, after⟩ := signature_cut indices indices' _ _ readable.2
            readable'.2 (stops_cons 0x2c _ (by decide)) (stops_cons 0x2c _ (by decide))
            (List.cons.inj behind).2
          obtain ⟨orders, last⟩ := ordered_cut ordered ordered' _ _ (List.cons.inj after).2
          exact ⟨by rw [shown, shown, dictionaries, allIndices, orders],
            (List.cons.inj last).2⟩

theorem signatures_cut : (left right : List (FieldOf ArrowType)) → (closing : CodeUnit) →
    (rest rest' : Text) → closing ∈ stops → closing ≠ 0x2c → ReadableFields closing left →
    ReadableFields closing right →
    signatures left ++ closing :: rest = signatures right ++ closing :: rest' →
      showns left = showns right ∧ rest = rest'
  | [], [], closing, rest, rest', _, _, _, _, same => ⟨rfl, (List.cons.inj same).2⟩
  | [], ⟨name, type, _, _⟩ :: others, closing, rest, rest', member, _, _, readable, same => by
      rw [signatures_cons, fieldSignature] at same
      cases name with
      | nil =>
          have colon : closing = 0x3a := (List.cons.inj same).1
          rw [colon] at member
          exact absurd member (by decide)
      | cons unit units =>
          have first : closing = unit := (List.cons.inj same).1
          exact absurd first.symm (readable.1.opens unit rfl)
  | ⟨name, type, _, _⟩ :: others, [], closing, rest, rest', member, _, readable, _, same => by
      rw [signatures_cons, fieldSignature] at same
      cases name with
      | nil =>
          have colon : 0x3a = closing := (List.cons.inj same).1
          rw [← colon] at member
          exact absurd member (by decide)
      | cons unit units =>
          have first : unit = closing := (List.cons.inj same).1
          exact absurd first (readable.1.opens unit rfl)
  | ⟨name, type, _, _⟩ :: others, ⟨name', type', _, _⟩ :: others', closing, rest, rest', member,
      apart, readable, readable', same => by
      obtain ⟨named, typed, laters⟩ := readable
      obtain ⟨named', typed', laters'⟩ := readable'
      obtain ⟨stop, behind, stopEq, stopMem⟩ := more_stops closing member others rest
      obtain ⟨stop', behind', stopEq', stopMem'⟩ := more_stops closing member others' rest'
      simp only [signatures_cons, fieldSignature, List.append_assoc] at same
      rw [stopEq, stopEq'] at same
      obtain ⟨names, types⟩ := name_cut closing name name' _ _ named named'
        (begins_signature type stop behind stopMem) (begins_signature type' stop' behind' stopMem')
        same
      obtain ⟨shownTypes, tails⟩ := signature_cut type type' _ _ typed typed'
        (stops_cons stop behind stopMem) (stops_cons stop' behind' stopMem') types
      rw [← stopEq, ← stopEq'] at tails
      have fields : showns others = showns others' ∧ rest = rest' := by
        cases others with
        | nil =>
            cases others' with
            | nil => exact ⟨rfl, (List.cons.inj tails).2⟩
            | cons second others' => exact absurd (List.cons.inj tails).1 apart
        | cons second others =>
            cases others' with
            | nil => exact absurd (List.cons.inj tails).1.symm apart
            | cons second' others' =>
                exact signatures_cut (second :: others) (second' :: others') closing rest rest'
                  member apart laters laters' (List.cons.inj tails).2
      exact ⟨by rw [showns, showns, names, shownTypes, fields.1], fields.2⟩

end

/-! ## Equal signatures -/

private theorem opening_shown (kind : NestKind) :
    kind.shown.opening = kind.opening ∧ kind.shown.closing = kind.closing := by
  cases kind <;> exact ⟨rfl, rfl⟩

mutual

theorem signature_shown : (type : ArrowType) → signature (shown type) = signature type
  | .leaf type => by rw [shown, signature, signature, type.signature_shown]
  | .nested kind children => by
      rw [shown, signature, signature, signatures_shown children, (opening_shown kind).1,
        (opening_shown kind).2]
  | .dictionary id dictionary indices ordered => by
      rw [shown, signature, signature, signature_shown dictionary, signature_shown indices]

theorem signatures_shown : (children : List (FieldOf ArrowType)) →
    signatures (showns children) = signatures children
  | [] => rfl
  | ⟨name, type, nullable, metadata⟩ :: rest => by
      have later : more (showns rest) = more rest := by
        cases rest with
        | nil => rfl
        | cons second others =>
            have same := signatures_shown (second :: others)
            obtain ⟨_, _, _, _⟩ := second
            exact congrArg (text "," ++ ·) same
      rw [showns, signatures_cons, signatures_cons, fieldSignature, fieldSignature,
        signature_shown type, later]

end

mutual

theorem shown_skeleton : (type : ArrowType) → shown (skeleton type) = shown type
  | .leaf type => rfl
  | .nested kind children => by rw [skeleton, shown, shown, showns_skeletons children]
  | .dictionary id dictionary indices ordered => by
      rw [skeleton, shown, shown, shown_skeleton dictionary, shown_skeleton indices]

theorem showns_skeletons : (children : List (FieldOf ArrowType)) →
    showns (skeletons children) = showns children
  | [] => rfl
  | ⟨name, type, nullable, metadata⟩ :: rest => by
      rw [skeletons, showns, showns, shown_skeleton type, showns_skeletons rest]

end

theorem signature_eq_iff (left right : ArrowType) (readable : Readable left)
    (readable' : Readable right) : signature left = signature right ↔ shown left = shown right := by
  constructor
  · intro same
    have cut := signature_cut left right [] [] readable readable' (fun _ => nofun) (fun _ => nofun)
      (congrArg (· ++ []) same)
    exact cut.1
  · intro same
    rw [← signature_shown left, same, signature_shown right]

/-- Readable types of either library: equal signatures are equal structures exactly where
the types do not differ only in what a signature does not show. -/
theorem type_signature_faithful_iff (spelling spelling' : Spelling) (left right : ArrowType)
    (readable : Readable left) (readable' : Readable right) :
    (typeSignature (object spelling left) = typeSignature (object spelling' right) ↔
        skeleton left = skeleton right) ↔
      (shown left = shown right → skeleton left = skeleton right) := by
  rw [typeSignature_object, typeSignature_object, signature_eq_iff left right readable readable']
  refine ⟨Iff.mp, fun shows => ⟨shows, fun same => ?_⟩⟩
  rw [← shown_skeleton left, same, shown_skeleton right]

def listOf (item : LeafType) : ArrowType :=
  .nested .list [⟨text "item", .leaf item, true, .empty⟩]

/-- Lists of 32-bit integers and of texts. -/
theorem list_signatures_faithful :
    typeSignature (object .arrowJs (listOf (.int 32 true))) =
        typeSignature (object (.flechette true) (listOf .utf8)) ↔
      skeleton (listOf (.int 32 true)) = skeleton (listOf .utf8) := by
  have item : ReadableName 0x3e (text "item") := by
    refine ⟨fun unit member => ?_, fun before after same => ?_⟩
    · cases member
      decide
    · have member : (0x3a : CodeUnit) ∈ text "item" := by
        rw [same]
        exact List.mem_append_right _ List.mem_cons_self
      exact absurd member (by decide)
  have left : Readable (listOf (.int 32 true)) := ⟨item, trivial, trivial⟩
  have right : Readable (listOf .utf8) := ⟨item, trivial, trivial⟩
  exact (type_signature_faithful_iff .arrowJs (.flechette true) _ _ left right).mpr
    fun shows => by cases shows

/-- A name can spell the first of two children, and the comma between them. -/
theorem merged_children_collide (kind : NestKind) (first second : FieldOf ArrowType)
    (rest : List (FieldOf ArrowType)) :
    signature (.nested kind (first :: second :: rest)) =
      signature (.nested kind
        (⟨fieldSignature first ++ text "," ++ second.name, second.type, second.nullable,
          second.metadata⟩ :: rest)) := by
  obtain ⟨name, type, nullable, metadata⟩ := second
  rw [signature, signature, signatures_cons, more, signatures_cons, signatures_cons]
  simp [fieldSignature]

/-- `struct<a: int32, b: utf8>` and a struct with the one field `a:int32,b` of type utf8. -/
theorem field_name_collides :
    ¬∀ (spelling spelling' : Spelling) (left right : ArrowType),
      typeSignature (object spelling left) = typeSignature (object spelling' right) ↔
        skeleton left = skeleton right := by
  intro faithful
  have same := (faithful .arrowJs .arrowJs
    (.nested .struct [⟨text "a", .leaf (.int 32 true), true, .empty⟩,
      ⟨text "b", .leaf .utf8, true, .empty⟩])
    (.nested .struct [⟨text "a:int32,b", .leaf .utf8, true, .empty⟩])).mp (by decide +kernel)
  cases same

end VgiWorker.Arrow.Library
