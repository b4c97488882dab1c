import VgiWorker.Arrow.LibraryTypes

/-!
# Type signatures

The text that stands for a type object where types are compared, and the text that it is
for a type of either library.
-/

set_option autoImplicit false

namespace VgiWorker.Arrow.Library

open VgiWorker.Js

/-- A property in a template literal. -/
def shownProperty {Value : Type} (render : Value → Text) (value : Option Value) : Text :=
  (value.map render).getD (text "undefined")

def shownInt (value : Option Int) : Text := shownProperty Number.decimalInt value

def shownNat (value : Option Nat) : Text := shownProperty Number.decimal value

/-- The cases of the signature, over the children's texts (nothing where the object has no
array of them) and those of the dictionary and its indices. -/
def describe (type : Properties) (children : Option Text) (dictionary indices : Text) : Text :=
  let kids := children.getD []
  if type.typeId = 2 then
    text "int" ++ shownNat type.bitWidth ++
      if ((type.isSigned <|> type.signed).getD true) then [] else text "u"
  else if type.typeId = 3 then text "float" ++ shownNat type.precision
  else if type.typeId = 7 then
    text "decimal" ++ Number.decimal (type.bitWidth.getD 128) ++ text "(" ++
      shownNat type.precision ++ text "," ++ shownInt type.scale ++ text ")"
  else if type.typeId = 8 ∨ type.typeId = 9 ∨ type.typeId = 18 then
    Number.decimalInt type.typeId ++ text "[" ++ shownNat type.unit ++ text "]"
  else if type.typeId = 10 then
    text "ts[" ++ shownNat type.unit ++ text "," ++ type.timezone.getD [] ++ text "]"
  else if type.typeId = 11 then text "iv[" ++ shownNat type.unit ++ text "]"
  else if type.typeId = 15 then
    text "fsb(" ++ shownNat (type.byteWidth <|> type.stride) ++ text ")"
  else if type.typeId = 16 then
    text "fsl(" ++ shownNat (type.listSize <|> type.stride) ++ text "," ++ kids ++ text ")"
  else if type.typeId = 12 ∨ type.typeId = 13 ∨ type.typeId = 17 then
    Number.decimalInt type.typeId ++ text "<" ++ kids ++ text ">"
  else if type.typeId = 14 then
    text "union(" ++ shownNat type.mode ++ text "," ++ kids ++ text ")"
  else if type.typeId = -1 then
    text "dict(" ++ dictionary ++ text "," ++ indices ++ text "," ++
      (if (type.ordered <|> type.isOrdered).getD false then text "true" else text "false") ++
        text ")"
  else if children.isSome then Number.decimalInt type.typeId ++ text "<" ++ kids ++ text ">"
  else Number.decimalInt type.typeId

mutual

/-- Stable structural identity for an Arrow type, usable for equality. -/
def typeSignature : TypeObject → Text
  | .plain type => describe type none (text "null") (text "null")
  | .parent type children =>
      describe type (some (childSignatures children)) (text "null") (text "null")
  | .encoded type dictionary indices =>
      describe type none (typeSignature dictionary) (typeSignature indices)

def childSignatures : List (FieldOf TypeObject) → Text
  | [] => []
  | [child] => childSignature child
  | child :: rest => childSignature child ++ text "," ++ childSignatures rest

def childSignature : FieldOf TypeObject → Text
  | ⟨name, type, _, _⟩ => name ++ text ":" ++ typeSignature type

end

/-! ## The signature of a type -/

def LeafType.signature : LeafType → Text
  | .int bitWidth signed =>
      text "int" ++ Number.decimal bitWidth ++ if signed then [] else text "u"
  | .float precision => text "float" ++ Number.decimal precision.code
  | .decimal bitWidth precision scale =>
      text "decimal" ++ Number.decimal bitWidth ++ text "(" ++ Number.decimal precision ++
        text "," ++ Number.decimalInt scale ++ text ")"
  | .date unit => text "8[" ++ Number.decimal unit.code ++ text "]"
  | .time unit _ => text "9[" ++ Number.decimal unit.code ++ text "]"
  | .duration unit => text "18[" ++ Number.decimal unit.code ++ text "]"
  | .timestamp unit timezone =>
      text "ts[" ++ Number.decimal unit.code ++ text "," ++ timezone.getD [] ++ text "]"
  | .interval unit => text "iv[" ++ Number.decimal unit.code ++ text "]"
  | .fixedSizeBinary byteWidth => text "fsb(" ++ Number.decimal byteWidth ++ text ")"
  | .null => text "1"
  | .binary => text "4"
  | .utf8 => text "5"
  | .bool => text "6"
  | .largeBinary => text "19"
  | .largeUtf8 => text "20"
  | .binaryView => text "23"
  | .utf8View => text "24"

/-- What a nested type's signature has before its children. -/
def NestKind.opening : NestKind → Text
  | .fixedSizeList listSize => text "fsl(" ++ Number.decimal listSize ++ text ","
  | .union mode _ => text "union(" ++ Number.decimal mode.code ++ text ","
  | .list => text "12<"
  | .struct => text "13<"
  | .map _ => text "17<"
  | .largeList => text "21<"
  | .runEndEncoded => text "22<"
  | .listView => text "25<"
  | .largeListView => text "26<"

def NestKind.closing : NestKind → Text
  | .fixedSizeList _ | .union _ _ => text ")"
  | _ => text ">"

def orderedText (ordered : Bool) : Text :=
  if ordered then text "true" else text "false"

mutual

def signature : ArrowType → Text
  | .leaf type => type.signature
  | .nested kind children => kind.opening ++ signatures children ++ kind.closing
  | .dictionary _ dictionary indices ordered =>
      text "dict(" ++ signature dictionary ++ text "," ++ signature indices ++ text "," ++
        orderedText ordered ++ text ")"

def signatures : List (FieldOf ArrowType) → Text
  | [] => []
  | [child] => fieldSignature child
  | child :: rest => fieldSignature child ++ text "," ++ signatures rest

def fieldSignature : FieldOf ArrowType → Text
  | ⟨name, type, _, _⟩ => name ++ text ":" ++ signature type

end

/-- The type ids that signatures write out. -/
private theorem typeId_texts :
    Number.decimalInt 1 = text "1" ∧ Number.decimalInt 4 = text "4" ∧
      Number.decimalInt 5 = text "5" ∧ Number.decimalInt 6 = text "6" ∧
      Number.decimalInt 8 = text "8" ∧ Number.decimalInt 9 = text "9" ∧
      Number.decimalInt 12 = text "12" ∧ Number.decimalInt 13 = text "13" ∧
      Number.decimalInt 17 = text "17" ∧ Number.decimalInt 18 = text "18" ∧
      Number.decimalInt 19 = text "19" ∧ Number.decimalInt 20 = text "20" ∧
      Number.decimalInt 21 = text "21" ∧ Number.decimalInt 22 = text "22" ∧
      Number.decimalInt 23 = text "23" ∧ Number.decimalInt 24 = text "24" ∧
      Number.decimalInt 25 = text "25" ∧ Number.decimalInt 26 = text "26" := by
  decide +kernel

private theorem openings :
    text "8[" = text "8" ++ text "[" ∧ text "9[" = text "9" ++ text "[" ∧
      text "18[" = text "18" ++ text "[" ∧ text "12<" = text "12" ++ text "<" ∧
      text "13<" = text "13" ++ text "<" ∧ text "17<" = text "17" ++ text "<" ∧
      text "21<" = text "21" ++ text "<" ∧ text "22<" = text "22" ++ text "<" ∧
      text "25<" = text "25" ++ text "<" ∧ text "26<" = text "26" ++ text "<" := by
  decide +kernel

private theorem describe_leaf (spelling : Spelling) (type : LeafType) :
    describe (leafProperties spelling type) none (text "null") (text "null") = type.signature := by
  cases type with
  | int bitWidth signed =>
      cases spelling with
      | arrowJs => rfl
      | flechette aliased => cases aliased <;> rfl
  | fixedSizeBinary byteWidth => cases spelling <;> rfl
  | float | decimal | timestamp | interval => rfl
  | _ => simp [describe, leafProperties, LeafType.typeId, LeafType.signature, shownNat,
      shownProperty, typeId_texts, openings]

private theorem describe_nested (spelling : Spelling) (kind : NestKind) (children : Text) :
    describe (nestProperties spelling kind) (some children) (text "null") (text "null") =
      kind.opening ++ children ++ kind.closing := by
  cases kind with
  | fixedSizeList listSize => cases spelling <;> rfl
  | union mode typeIds => rfl
  | _ => simp [describe, nestProperties, NestKind.typeId, NestKind.opening, NestKind.closing,
      typeId_texts, openings]

mutual

/-- Both libraries' objects for a type have its signature. -/
theorem typeSignature_object (spelling : Spelling) : (type : ArrowType) →
    typeSignature (object spelling type) = signature type
  | .leaf type => describe_leaf spelling type
  | .nested kind children => by
      rw [object, typeSignature, describe_nested, childSignatures_objects spelling children,
        signature]
  | .dictionary id dictionary indices ordered => by
      rw [object, typeSignature, typeSignature_object spelling dictionary,
        typeSignature_object spelling indices, signature]
      cases spelling <;> cases ordered <;> rfl

theorem childSignatures_objects (spelling : Spelling) : (children : List (FieldOf ArrowType)) →
    childSignatures (objects spelling children) = signatures children
  | [] => rfl
  | [⟨name, type, nullable, metadata⟩] => by
      simp only [objects, childSignatures, childSignature, signatures, fieldSignature,
        typeSignature_object spelling type]
  | ⟨name, type, nullable, metadata⟩ :: second :: rest => by
      have later := childSignatures_objects spelling (second :: rest)
      obtain ⟨_, _, _, _⟩ := second
      rw [objects] at later
      simp only [objects, childSignatures, childSignature, signatures, fieldSignature,
        typeSignature_object spelling type, later]

end

/-! ## The types of the facade -/

mutual

/-- A type of the facade as one of the libraries'. -/
def ofDataType : DataType → ArrowType
  | .null => .leaf .null
  | .int bitWidth signed => .leaf (.int bitWidth signed)
  | .float precision => .leaf (.float precision)
  | .binary => .leaf .binary
  | .utf8 => .leaf .utf8
  | .bool => .leaf .bool
  | .decimal bitWidth precision scale => .leaf (.decimal bitWidth precision scale)
  | .date unit => .leaf (.date unit)
  | .time unit bitWidth => .leaf (.time unit bitWidth)
  | .timestamp unit timezone => .leaf (.timestamp unit timezone)
  | .interval unit => .leaf (.interval unit)
  | .list children => .nested .list (ofFields children)
  | .struct children => .nested .struct (ofFields children)
  | .union mode typeIds children => .nested (.union mode typeIds) (ofFields children)
  | .fixedSizeBinary byteWidth => .leaf (.fixedSizeBinary byteWidth)
  | .fixedSizeList listSize children => .nested (.fixedSizeList listSize) (ofFields children)
  | .map keysSorted children => .nested (.map keysSorted) (ofFields children)
  | .duration unit => .leaf (.duration unit)
  | .largeBinary => .leaf .largeBinary
  | .largeUtf8 => .leaf .largeUtf8
  | .dictionary id dictionary indices ordered =>
      .dictionary id (ofDataType dictionary) (ofDataType indices) ordered

def ofFields : List (FieldOf DataType) → List (FieldOf ArrowType)
  | [] => []
  | ⟨name, type, nullable, metadata⟩ :: rest =>
      ⟨name, ofDataType type, nullable, metadata⟩ :: ofFields rest

end

mutual

theorem signature_ofDataType : (type : DataType) →
    signature (ofDataType type) = Arrow.typeSignature type
  | .null | .int _ _ | .float _ | .binary | .utf8 | .bool | .decimal _ _ _ | .date _ | .time _ _
  | .timestamp _ _ | .interval _ | .fixedSizeBinary _ | .duration _ | .largeBinary
  | .largeUtf8 => rfl
  | .list children | .struct children | .union _ _ children | .fixedSizeList _ children
  | .map _ children => by
      rw [ofDataType, signature, signatures_ofFields children]
      rfl
  | .dictionary id dictionary indices ordered => by
      rw [ofDataType, signature, signature_ofDataType dictionary, signature_ofDataType indices]
      rfl

theorem signatures_ofFields : (children : List (FieldOf DataType)) →
    signatures (ofFields children) = Arrow.childSignatures children
  | [] => rfl
  | [⟨name, type, nullable, metadata⟩] => by
      rw [ofFields, ofFields, signatures, fieldSignature, signature_ofDataType type]
      rfl
  | ⟨name, type, nullable, metadata⟩ :: second :: rest => by
      have later := signatures_ofFields (second :: rest)
      obtain ⟨_, _, _, _⟩ := second
      rw [ofFields] at later
      rw [ofFields, ofFields, signatures, later, fieldSignature, signature_ofDataType type]
      · rfl
      · exact List.cons_ne_nil _ _

end

end VgiWorker.Arrow.Library
