import VgiWorker.Arrow.TypedColumns
import VgiWorker.Protocol.UserState

/-!
# Types of user state

An array is taken for homogeneous when its elements have types of one signature.
Where their objects have the same names, they have the same types.
-/

set_option autoImplicit false

namespace VgiWorker.Protocol.UserState

open VgiWorker.Js VgiWorker.Arrow

/-! ## States a token can hold -/

mutual

/-- The objects at the same places in the two values have the same names in the same order. -/
def SameNames : UserValue → UserValue → Prop
  | .array elements, .array others => ElementsSameNames elements others
  | .object members, .object others => MembersSameNames members others
  | _, _ => True

def ElementsSameNames : List UserValue → List UserValue → Prop
  | [], _ => True
  | element :: rest, others =>
      (∀ other ∈ others, SameNames element other) ∧ ElementsSameNames rest others

def MembersSameNames : List (Text × UserValue) → List (Text × UserValue) → Prop
  | [], [] => True
  | (name, value) :: rest, (otherName, other) :: others =>
      name = otherName ∧ SameNames value other ∧ MembersSameNames rest others
  | _, _ => False

end

/-- A value of the kinds that a token gives back, no member named `__proto__` and the objects in
each of its arrays with the same names. -/
inductive Portable : UserValue → Prop where
  | null : Portable .null
  | bool (value : Bool) : Portable (.bool value)
  | number (value : Number) : Portable (.number value)
  | bigint (value : Int) : Portable (.bigint value)
  | string (value : Text) : Portable (.string value)
  | bytes (value : Bytes) : Portable (.bytes value)
  | array (elements : List UserValue) (each : ∀ element ∈ elements, Portable element)
      (uniform : ∀ element ∈ elements, ∀ other ∈ elements, SameNames element other) :
      Portable (.array elements)
  | object (members : List (Text × UserValue)) (plain : text "__proto__" ∉ members.map Prod.fst)
      (each : ∀ member ∈ members, Portable member.2) : Portable (.object members)

mutual

/-- UTF-8 keeps every string and every name in the value. -/
def TextKept : UserValue → Prop
  | .string value => FitsText value
  | .array elements => ElementsTextKept elements
  | .object members => MembersTextKept members
  | _ => True

def ElementsTextKept : List UserValue → Prop
  | [] => True
  | element :: rest => TextKept element ∧ ElementsTextKept rest

def MembersTextKept : List (Text × UserValue) → Prop
  | [] => True
  | (name, value) :: rest => FitsText name ∧ TextKept value ∧ MembersTextKept rest

end

mutual

/-- Objects have distinct names. -/
def WellFormed : UserValue → Prop
  | .array elements => ElementsWellFormed elements
  | .object members | .classInstance _ members =>
      (members.map Prod.fst).Nodup ∧ MembersWellFormed members
  | _ => True

def ElementsWellFormed : List UserValue → Prop
  | [] => True
  | element :: rest => WellFormed element ∧ ElementsWellFormed rest

def MembersWellFormed : List (Text × UserValue) → Prop
  | [] => True
  | (_, value) :: rest => WellFormed value ∧ MembersWellFormed rest

end

/-! ## Inferred types -/

theorem inferFields_ok (members : List (Text × UserValue)) (fields : List Field)
    (inferred : inferFields members = .ok fields) :
    List.Forall₂ (fun member field => field = stateField member.1 field.type ∧
      inferFieldType member.2 = .ok field.type) members fields := by
  induction members generalizing fields with
  | nil =>
      cases inferred
      exact .nil
  | cons member rest ih =>
      obtain ⟨name, value⟩ := member
      rw [inferFields] at inferred
      obtain ⟨type, here, inferred⟩ := except_bind_ok _ _ _ inferred
      obtain ⟨others, later, inferred⟩ := except_bind_ok _ _ _ inferred
      cases inferred
      exact .cons ⟨rfl, here⟩ (ih others later)

private theorem inferElementType_some (elements : List UserValue) (first type : DataType)
    (inferred : inferElementType (some first) elements = .ok type) :
    type = first ∧ ∀ element ∈ elements, element.isNullish = false →
      ∃ other, inferFieldType element = .ok other ∧
        typeSignature other = typeSignature first := by
  induction elements with
  | nil =>
      cases inferred
      exact ⟨rfl, nofun⟩
  | cons element rest ih =>
      rw [inferElementType] at inferred
      split at inferred
      · rename_i nullish
        obtain ⟨same, each⟩ := ih inferred
        refine ⟨same, fun other member notNull => ?_⟩
        rcases List.mem_cons.mp member with rfl | member
        · rw [nullish] at notNull
          cases notNull
        · exact each other member notNull
      · obtain ⟨other, here, inferred⟩ := except_bind_ok _ _ _ inferred
        simp only at inferred
        split at inferred
        · cases inferred
        · rename_i alike
          obtain ⟨same, each⟩ := ih inferred
          refine ⟨same, fun element' member notNull => ?_⟩
          rcases List.mem_cons.mp member with rfl | member
          · exact ⟨other, here, not_not.mp alike⟩
          · exact each element' member notNull

/-- The element type of an array is that of its first element that is not null. -/
theorem inferElementType_none (elements : List UserValue) (type : DataType)
    (inferred : inferElementType none elements = .ok type) :
    ((∃ element ∈ elements, element.isNullish = false ∧ inferFieldType element = .ok type) ∨
      type = .utf8) ∧
    ∀ element ∈ elements, element.isNullish = false →
      ∃ other, inferFieldType element = .ok other ∧ typeSignature other = typeSignature type := by
  induction elements with
  | nil =>
      cases inferred
      exact ⟨.inr rfl, nofun⟩
  | cons element rest ih =>
      rw [inferElementType] at inferred
      split at inferred
      · rename_i nullish
        obtain ⟨source, each⟩ := ih inferred
        refine ⟨?_, fun other member notNull => ?_⟩
        · rcases source with ⟨other, member, found⟩ | isText
          · exact .inl ⟨other, List.mem_cons_of_mem _ member, found⟩
          · exact .inr isText
        · rcases List.mem_cons.mp member with rfl | member
          · rw [nullish] at notNull
            cases notNull
          · exact each other member notNull
      · rename_i filled
        obtain ⟨first, here, inferred⟩ := except_bind_ok _ _ _ inferred
        obtain ⟨rfl, each⟩ := inferElementType_some rest first type inferred
        refine ⟨.inl ⟨element, List.mem_cons_self, Bool.eq_false_iff.mpr filled, here⟩,
          fun other member notNull => ?_⟩
        rcases List.mem_cons.mp member with rfl | member
        · exact ⟨_, here, rfl⟩
        · exact each other member notNull

mutual

theorem inferFieldType_userType : ∀ (value : UserValue) (type : DataType),
    inferFieldType value = .ok type → UserType type
  | .undefined, _, inferred | .null, _, inferred => by
      cases inferred
      exact .null
  | .bool _, _, inferred => by
      cases inferred
      exact .bool
  | .number _, _, inferred => by
      cases inferred
      exact .number
  | .bigint _, _, inferred => by
      cases inferred
      exact .bigint
  | .string _, _, inferred => by
      cases inferred
      exact .string
  | .bytes _, _, inferred | .arrayBuffer _, _, inferred | .view _ _, _, inferred => by
      cases inferred
      exact .bytes
  | .array elements, _, inferred => by
      rw [inferFieldType] at inferred
      obtain ⟨elementType, made, inferred⟩ := except_bind_ok _ _ _ inferred
      cases inferred
      refine .array _ ?_
      rcases (inferElementType_none elements elementType made).1 with ⟨element, member, _, found⟩ | rfl
      · exact elements_userType elements element member elementType found
      · exact .string
  | .object members, _, inferred | .classInstance _ members, _, inferred => by
      rw [inferFieldType] at inferred
      obtain ⟨fields, made, inferred⟩ := except_bind_ok _ _ _ inferred
      cases inferred
      refine .object fields fun field isField => ?_
      obtain ⟨index, isField⟩ := List.mem_iff_getElem?.mp isField
      obtain ⟨member, isMember, _, found⟩ :=
        forall₂_getElem? (inferFields_ok members fields made).flip index field isField
      exact members_userType members member (List.mem_of_getElem? isMember) field.type found
  | .unsupported _, _, inferred => by cases inferred

theorem elements_userType : ∀ (elements : List UserValue) (element : UserValue),
    element ∈ elements → ∀ type, inferFieldType element = .ok type → UserType type
  | first :: rest, element, member, type, inferred => by
      rcases List.mem_cons.mp member with here | member
      · rw [here] at inferred
        exact inferFieldType_userType first type inferred
      · exact elements_userType rest element member type inferred

theorem members_userType : ∀ (members : List (Text × UserValue)) (member : Text × UserValue),
    member ∈ members → ∀ type, inferFieldType member.2 = .ok type → UserType type
  | (_, value) :: rest, member, isMember, type, inferred => by
      rcases List.mem_cons.mp isMember with here | isMember
      · rw [here] at inferred
        exact inferFieldType_userType value type inferred
      · exact members_userType rest member isMember type inferred

end

/-! ## Signatures -/

/-- What stands behind a type in a signature: nothing, a comma or a closing bracket. -/
private def Ends (rest : Text) : Prop :=
  ∀ unit ∈ rest.head?, unit = 0x2c ∨ unit = 0x3e

private theorem signature_list (children : List Field) :
    typeSignature (.list children) =
      0x31 :: 0x32 :: 0x3c :: (childSignatures children ++ text ">") := by
  rw [typeSignature, List.append_assoc]
  rfl

private theorem signature_struct (children : List Field) :
    typeSignature (.struct children) =
      0x31 :: 0x33 :: 0x3c :: (childSignatures children ++ text ">") := by
  rw [typeSignature, List.append_assoc]
  rfl

private theorem signature_scalars :
    typeSignature .null = [0x31] ∧ typeSignature .binary = [0x34] ∧ typeSignature .utf8 = [0x35] ∧
      typeSignature .bool = [0x36] ∧
      typeSignature (.float .double) = [0x66, 0x6c, 0x6f, 0x61, 0x74, 0x32] ∧
      typeSignature (.int 64 true) = [0x69, 0x6e, 0x74, 0x36, 0x34] := by
  decide +kernel

/-- The signature of a type without children tells it from every other. -/
private theorem scalar_signature (left right : DataType) (leftType : UserType left)
    (rightType : UserType right) (noList : ∀ children, left ≠ .list children)
    (noStruct : ∀ children, left ≠ .struct children) (leftRest rightRest : Text)
    (leftEnds : Ends leftRest)
    (same : typeSignature left ++ leftRest = typeSignature right ++ rightRest) :
    left = right ∧ leftRest = rightRest := by
  obtain ⟨null, binary, utf8, bool, float, int⟩ := signature_scalars
  cases leftType with
  | array item inner => exact absurd rfl (noList _)
  | object fields each => exact absurd rfl (noStruct _)
  | null =>
      cases rightType with
      | array item inner =>
          rw [null, signature_list, List.cons_append, List.nil_append] at same
          rw [(List.cons.inj same).2] at leftEnds
          exact absurd (leftEnds _ rfl) (by decide)
      | object fields each =>
          rw [null, signature_struct, List.cons_append, List.nil_append] at same
          rw [(List.cons.inj same).2] at leftEnds
          exact absurd (leftEnds _ rfl) (by decide)
      | _ => simp_all
  | _ =>
      cases rightType with
      | array item inner => simp_all [signature_list]
      | object fields each => simp_all [signature_struct]
      | _ => simp_all

/-- The types of two values are the same when their signatures are. -/
private def SameType (left right : UserValue) : Prop :=
  SameNames left right → ∀ leftType rightType, inferFieldType left = .ok leftType →
    inferFieldType right = .ok rightType → ∀ leftRest rightRest, Ends leftRest → Ends rightRest →
      typeSignature leftType ++ leftRest = typeSignature rightType ++ rightRest →
        leftType = rightType ∧ leftRest = rightRest

private theorem ends_comma (rest : Text) : Ends (text "," ++ rest) := by
  intro unit member
  cases member
  exact .inl rfl

private theorem ends_bracket (rest : Text) : Ends (text ">" ++ rest) := by
  intro unit member
  cases member
  exact .inr rfl

private theorem sameFields (members others : List (Text × UserValue))
    (each : ∀ member ∈ members, ∀ other ∈ others, SameType member.2 other.2)
    (named : MembersSameNames members others) (fields otherFields : List Field)
    (left : inferFields members = .ok fields) (right : inferFields others = .ok otherFields)
    (leftRest rightRest : Text)
    (same : childSignatures fields ++ (text ">" ++ leftRest) =
      childSignatures otherFields ++ (text ">" ++ rightRest)) :
    fields = otherFields ∧ leftRest = rightRest := by
  induction members generalizing others fields otherFields with
  | nil =>
      cases others with
      | nil =>
          cases left
          cases right
          exact ⟨rfl, List.append_cancel_left same⟩
      | cons other others => cases named
  | cons member members ih =>
      cases others with
      | nil => cases named
      | cons other others =>
          obtain ⟨name, value⟩ := member
          obtain ⟨otherName, otherValue⟩ := other
          obtain ⟨rfl, alike, named⟩ := named
          rw [inferFields] at left right
          obtain ⟨type, here, left⟩ := except_bind_ok _ _ _ left
          obtain ⟨fields, later, left⟩ := except_bind_ok _ _ _ left
          obtain ⟨otherType, otherHere, right⟩ := except_bind_ok _ _ _ right
          obtain ⟨otherFields, otherLater, right⟩ := except_bind_ok _ _ _ right
          cases left
          cases right
          have first := each _ List.mem_cons_self _ List.mem_cons_self alike type otherType here
            otherHere
          have prefixed : ∀ (type : DataType) (rest : Text),
              childSignature (stateField name type) ++ rest =
                name ++ (text ":" ++ (typeSignature type ++ rest)) := by
            intro type rest
            simp [childSignature, stateField]
          cases members with
          | nil =>
              cases others with
              | cons other others => cases named
              | nil =>
                  cases later
                  cases otherLater
                  simp only [childSignatures, prefixed] at same
                  have same := List.append_cancel_left (List.append_cancel_left same)
                  obtain ⟨rfl, rests⟩ := first _ _ (ends_bracket _) (ends_bracket _) same
                  exact ⟨rfl, List.append_cancel_left rests⟩
          | cons second members =>
              cases others with
              | nil => cases named
              | cons otherSecond others =>
                  have notLast := (inferFields_ok _ _ later).length_eq
                  have otherNotLast := (inferFields_ok _ _ otherLater).length_eq
                  cases fields with
                  | nil => cases notLast
                  | cons field fields =>
                      cases otherFields with
                      | nil => cases otherNotLast
                      | cons otherField otherFields =>
                          simp only [childSignatures, List.append_assoc, prefixed] at same
                          have same := List.append_cancel_left (List.append_cancel_left same)
                          obtain ⟨rfl, rests⟩ := first _ _ (ends_comma _) (ends_comma _) same
                          obtain ⟨fieldsSame, restsSame⟩ := ih (otherSecond :: others)
                            (fun member isMember other isOther =>
                              each member (List.mem_cons_of_mem _ isMember) other
                                (List.mem_cons_of_mem _ isOther))
                            named _ _ later otherLater (List.append_cancel_left rests)
                          rw [fieldsSame]
                          exact ⟨rfl, restsSame⟩

theorem elementsSameNames_iff (elements others : List UserValue) :
    ElementsSameNames elements others ↔
      ∀ element ∈ elements, ∀ other ∈ others, SameNames element other := by
  induction elements with
  | nil => exact iff_of_true trivial nofun
  | cons element rest ih =>
      rw [ElementsSameNames, ih]
      exact ⟨fun both => List.forall_mem_cons.mpr both, fun each => List.forall_mem_cons.mp each⟩

theorem inferFieldType_array (elements : List UserValue) (type : DataType)
    (inferred : inferFieldType (.array elements) = .ok type) :
    ∃ elementType, inferElementType none elements = .ok elementType ∧
      type = .list [stateField listChildName elementType] := by
  rw [inferFieldType] at inferred
  obtain ⟨elementType, made, inferred⟩ := except_bind_ok _ _ _ inferred
  cases inferred
  exact ⟨elementType, made, rfl⟩

theorem inferFieldType_object (members : List (Text × UserValue)) (type : DataType)
    (inferred : inferFieldType (.object members) = .ok type) :
    ∃ fields, inferFields members = .ok fields ∧ type = .struct fields := by
  rw [inferFieldType] at inferred
  obtain ⟨fields, made, inferred⟩ := except_bind_ok _ _ _ inferred
  cases inferred
  exact ⟨fields, made, rfl⟩

/-- A value without children has a type of its own. -/
private theorem sameType_of_scalar (left right : UserValue)
    (noArray : ∀ elements, left ≠ .array elements) (noObject : ∀ members, left ≠ .object members)
    (portable : Portable left) : SameType left right ∧ SameType right left := by
  have scalar : ∀ type, inferFieldType left = .ok type →
      (∀ children, type ≠ .list children) ∧ ∀ children, type ≠ .struct children := by
    intro type inferred
    cases portable with
    | array elements each uniform => exact absurd rfl (noArray _)
    | object members each => exact absurd rfl (noObject _)
    | _ =>
        cases inferred
        constructor <;> simp
  constructor
  · intro _ leftType rightType leftOk rightOk leftRest rightRest leftEnds _ same
    exact scalar_signature _ _ (inferFieldType_userType _ _ leftOk)
      (inferFieldType_userType _ _ rightOk) (scalar _ leftOk).1 (scalar _ leftOk).2 _ _ leftEnds same
  · intro _ rightType leftType rightOk leftOk rightRest leftRest _ leftEnds same
    obtain ⟨types, rests⟩ := scalar_signature _ _ (inferFieldType_userType _ _ leftOk)
      (inferFieldType_userType _ _ rightOk) (scalar _ leftOk).1 (scalar _ leftOk).2 _ _ leftEnds
      same.symm
    exact ⟨types.symm, rests.symm⟩

private theorem sameType_arrays (elements others : List UserValue)
    (each : ∀ element ∈ elements, ∀ other ∈ others, SameType element other) :
    SameType (.array elements) (.array others) := by
  intro alike leftType rightType leftOk rightOk leftRest rightRest leftEnds rightEnds same
  have alike := (elementsSameNames_iff elements others).mp alike
  obtain ⟨elementType, left, rfl⟩ := inferFieldType_array elements leftType leftOk
  obtain ⟨otherType, right, rfl⟩ := inferFieldType_array others rightType rightOk
  have inner : ∀ (type : DataType) (rest : Text),
      typeSignature (.list [stateField listChildName type]) ++ rest =
        0x31 :: 0x32 :: 0x3c :: (listChildName ++ (text ":" ++
          (typeSignature type ++ (text ">" ++ rest)))) := by
    intro type rest
    simp [signature_list, childSignatures, childSignature, stateField]
  rw [inner, inner] at same
  have same := List.append_cancel_left (List.append_cancel_left
    (List.cons.inj (List.cons.inj (List.cons.inj same).2).2).2)
  have leftList := inferFieldType_userType _ _ leftOk
  have rightList := inferFieldType_userType _ _ rightOk
  have leftUser : UserType elementType := by cases leftList with | array _ inner => exact inner
  have rightUser : UserType otherType := by cases rightList with | array _ inner => exact inner
  have found : elementType = otherType ∧ text ">" ++ leftRest = text ">" ++ rightRest := by
    rcases (inferElementType_none elements elementType left).1 with
      ⟨element, member, _, elementOk⟩ | rfl
    · rcases (inferElementType_none others otherType right).1 with ⟨other, isOther, _, otherOk⟩ | rfl
      · exact each element member other isOther (alike element member other isOther) _ _ elementOk
          otherOk _ _ (ends_bracket _) (ends_bracket _) same
      · obtain ⟨types, rests⟩ := scalar_signature .utf8 elementType rightUser leftUser (by simp) (by simp)
          _ _ (ends_bracket _) same.symm
        exact ⟨types.symm, rests.symm⟩
    · exact scalar_signature .utf8 otherType leftUser rightUser (by simp) (by simp) _ _ (ends_bracket _) same
  exact ⟨by rw [found.1], List.append_cancel_left found.2⟩

private theorem sameType_objects (members others : List (Text × UserValue))
    (each : ∀ member ∈ members, ∀ other ∈ others, SameType member.2 other.2) :
    SameType (.object members) (.object others) := by
  intro alike leftType rightType leftOk rightOk leftRest rightRest leftEnds rightEnds same
  obtain ⟨fields, left, rfl⟩ := inferFieldType_object members leftType leftOk
  obtain ⟨otherFields, right, rfl⟩ := inferFieldType_object others rightType rightOk
  simp only [signature_struct, List.cons_append, List.append_assoc, List.cons.injEq,
    true_and] at same
  obtain ⟨rfl, rests⟩ := sameFields members others each alike fields otherFields left right
    leftRest rightRest same
  exact ⟨rfl, rests⟩

private theorem sameType_array_object (elements : List UserValue)
    (members : List (Text × UserValue)) : SameType (.array elements) (.object members) ∧
      SameType (.object members) (.array elements) := by
  constructor
  · intro _ leftType rightType leftOk rightOk leftRest rightRest _ _ same
    obtain ⟨elementType, _, rfl⟩ := inferFieldType_array elements leftType leftOk
    obtain ⟨fields, _, rfl⟩ := inferFieldType_object members rightType rightOk
    simp [signature_list, signature_struct] at same
  · intro _ leftType rightType leftOk rightOk leftRest rightRest _ _ same
    obtain ⟨fields, _, rfl⟩ := inferFieldType_object members leftType leftOk
    obtain ⟨elementType, _, rfl⟩ := inferFieldType_array elements rightType rightOk
    simp [signature_list, signature_struct] at same

/-- Where the objects have the same names, the signature tells the type. -/
private theorem sameType (left : UserValue) (portable : Portable left) :
    ∀ right, Portable right → SameType left right := by
  have whole := portable
  induction portable with
  | array elements each uniform ih =>
      intro right portable
      have whole := portable
      cases portable with
      | array others eachOther uniform =>
          exact sameType_arrays elements others fun element member other isOther =>
            ih element member (each element member) other (eachOther other isOther)
      | object members plain each => exact (sameType_array_object elements members).1
      | _ => exact (sameType_of_scalar _ _ (by nofun) (by nofun) whole).2
  | object members plain each ih =>
      intro right portable
      have whole := portable
      cases portable with
      | array elements each uniform => exact (sameType_array_object elements members).2
      | object others _ eachOther =>
          exact sameType_objects members others fun member isMember other isOther =>
            ih member isMember (each member isMember) other.2 (eachOther other isOther)
      | _ => exact (sameType_of_scalar _ _ (by nofun) (by nofun) whole).2
  | _ => exact fun right _ => (sameType_of_scalar _ right (by nofun) (by nofun) whole).1

/-! ## Values of the inferred types -/

@[simp] theorem toRichElements_map (elements : List UserValue) :
    UserValue.toRichElements elements = elements.map UserValue.toRich := by
  induction elements with
  | nil => rfl
  | cons element rest ih => rw [UserValue.toRichElements, ih, List.map_cons]

@[simp] theorem toRichMembers_map (members : List (Text × UserValue)) :
    UserValue.toRichMembers members =
      members.map fun member => (member.1, member.2.toRich) := by
  induction members with
  | nil => rfl
  | cons member rest ih => rw [UserValue.toRichMembers, ih, List.map_cons]

@[simp] theorem ofRichElements_map (elements : List Rich) :
    UserValue.ofRichElements elements = elements.map UserValue.ofRich := by
  induction elements with
  | nil => rfl
  | cons element rest ih => rw [UserValue.ofRichElements, ih, List.map_cons]

theorem ofRichMembers_filter (members : List (Text × Rich)) :
    UserValue.ofRichMembers members =
      (members.filter fun member => member.1 ≠ text "__proto__").map fun member =>
        (member.1, UserValue.ofRich member.2) := by
  induction members with
  | nil => rfl
  | cons member rest ih =>
      obtain ⟨name, value⟩ := member
      by_cases same : name = text "__proto__"
      · rw [UserValue.ofRichMembers, if_pos same, ih, List.filter_cons_of_neg (by simpa using same)]
      · rw [UserValue.ofRichMembers, if_neg same, ih, List.filter_cons_of_pos (by simpa using same),
          List.map_cons]

theorem ofRichMembers_map (members : List (Text × Rich))
    (plain : text "__proto__" ∉ members.map Prod.fst) :
    UserValue.ofRichMembers members =
      members.map fun member => (member.1, UserValue.ofRich member.2) := by
  rw [ofRichMembers_filter, List.filter_eq_self.mpr]
  intro member isMember
  exact decide_eq_true fun same => plain (same ▸ List.mem_map_of_mem isMember)

theorem plain_ofRichMembers (members : List (Text × Rich)) :
    text "__proto__" ∉ (UserValue.ofRichMembers members).map Prod.fst := by
  rw [ofRichMembers_filter, List.map_map]
  intro isName
  obtain ⟨member, isMember, same⟩ := List.mem_map.mp isName
  exact of_decide_eq_true (List.mem_filter.mp isMember).2 same

theorem elementsWellFormed_iff (elements : List UserValue) :
    ElementsWellFormed elements ↔ ∀ element ∈ elements, WellFormed element := by
  induction elements with
  | nil => exact iff_of_true trivial nofun
  | cons element rest ih => rw [ElementsWellFormed, ih, List.forall_mem_cons]

theorem membersWellFormed_iff (members : List (Text × UserValue)) :
    MembersWellFormed members ↔ ∀ member ∈ members, WellFormed member.2 := by
  induction members with
  | nil => exact iff_of_true trivial nofun
  | cons member rest ih => rw [MembersWellFormed, ih, List.forall_mem_cons]

/-- The elements that are not null have the element type. -/
theorem elementTypes (elements : List UserValue)
    (each : ∀ element ∈ elements, Portable element)
    (uniform : ∀ element ∈ elements, ∀ other ∈ elements, SameNames element other)
    (elementType : DataType) (made : inferElementType none elements = .ok elementType)
    (element : UserValue) (member : element ∈ elements) (notNull : element.isNullish = false) :
    inferFieldType element = .ok elementType := by
  obtain ⟨source, signatures⟩ := inferElementType_none elements elementType made
  obtain ⟨type, found, alike⟩ := signatures element member notNull
  have ends : Ends [] := by simp [Ends]
  rcases source with ⟨first, isFirst, _, firstOk⟩ | rfl
  · obtain ⟨rfl, _⟩ := sameType element (each element member) first (each first isFirst)
      (uniform element member first isFirst) type elementType found firstOk [] [] ends ends (by
        rw [alike])
    exact found
  · obtain ⟨rfl, _⟩ := scalar_signature .utf8 type .string (inferFieldType_userType _ _ found)
      (by simp) (by simp) [] [] ends (by rw [alike])
    exact found

/-- A value that a token can hold is a value of its inferred type. -/
theorem typed_inferred (value : UserValue) (portable : Portable value) :
    WellFormed value → ∀ type, inferFieldType value = .ok type → Typed type value.toRich := by
  induction portable with
  | array elements each uniform ih =>
      intro wellFormed type inferred
      obtain ⟨elementType, made, rfl⟩ := inferFieldType_array elements type inferred
      rw [UserValue.toRich, toRichElements_map]
      refine .array _ _ fun rich isRich => ?_
      obtain ⟨element, member, rfl⟩ := List.mem_map.mp isRich
      cases nullish : element.isNullish with
      | true =>
          have null : element.toRich = .null := by
            cases element <;> first | rfl | cases nullish
          rw [null]
          exact .null _
      | false =>
          exact ih element member ((elementsWellFormed_iff elements).mp wellFormed element member)
            elementType (elementTypes elements each uniform elementType made element member nullish)
  | object members plain each ih =>
      intro wellFormed type inferred
      obtain ⟨fields, made, rfl⟩ := inferFieldType_object members type inferred
      obtain ⟨distinct, inner⟩ := wellFormed
      rw [UserValue.toRich, toRichMembers_map]
      refine .object _ _ ?_ (by rwa [List.map_map]) (by rwa [List.map_map])
      have each' := (membersWellFormed_iff members).mp inner
      have related := inferFields_ok members fields made
      clear made inferred distinct plain each inner
      induction related with
      | nil => exact .nil
      | @cons member field rest fields here later ih' =>
          obtain ⟨isField, found⟩ := here
          have typed := ih member List.mem_cons_self (each' member List.mem_cons_self) _ found
          have others := ih' (fun other isOther => ih other (List.mem_cons_of_mem _ isOther))
            fun other isOther => each' other (List.mem_cons_of_mem _ isOther)
          have named : member.1 = field.name := by rw [isField]; rfl
          rw [List.map_cons, named]
          refine .cons field _ _ _ typed ?_ others
          intro null
          cases value : member.2 with
          | null | undefined =>
              rw [value] at found
              exact (Except.ok.inj found).symm
          | _ =>
              rw [value] at null
              cases null
  | _ =>
      intro _ type inferred
      cases inferred
      constructor

end VgiWorker.Protocol.UserState
