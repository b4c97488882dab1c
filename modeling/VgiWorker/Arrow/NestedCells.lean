import VgiWorker.Arrow.NestedData

/-!
# Cells of nested columns

The cells that are valid for a type, and when a column can give them back.
-/

set_option autoImplicit false

namespace VgiWorker.Arrow.Nested

open VgiWorker.Js

section

variable (valid : DataType → Value → Prop)

mutual

/-- A canonical value of a type, null at any level; `valid` says which values of the types without
children there are. -/
def ValidCell : DataType → Value → Prop
  | .list children, value => value = .null ∨ ValidItems children none value
  | .fixedSizeList listSize children, value =>
      value = .null ∨ ValidItems children (some listSize) value
  | .map _ children, value => value = .null ∨ ValidPairs children value
  | .struct children, value => value = .null ∨
      ∃ held : Text → Value, ValidMembers children held ∧
        value = .object (objectOf (children.map fun child => (child.name, held child.name)))
  | .union _ _ children, value => value = .null ∨
      ∃ name member, ValidMember children name member ∧
        value = taggedUnion (.string name) member
  | .dictionary _ dictionary _ _, value => ValidCell dictionary value
  | type, value => value = .null ∨ valid type value

def ValidItems : List (FieldOf DataType) → Option Nat → Value → Prop
  | [], _, _ => False
  | ⟨_, type, _, _⟩ :: _, listSize, value =>
      ∃ items, value = .array items ∧ (∀ count, listSize = some count → items.length = count) ∧
        ∀ item ∈ items, ValidCell type item

def ValidPairs : List (FieldOf DataType) → Value → Prop
  | ⟨_, .struct (⟨_, keyType, _, _⟩ :: ⟨_, valueType, _, _⟩ :: _), _, _⟩ :: _, value =>
      ∃ pairs : List (Value × Value), value = .array (pairs.map pairCell) ∧
        ∀ pair ∈ pairs, ValidCell keyType pair.1 ∧ ValidCell valueType pair.2
  | _, _ => False

/-- An object holds one value for all the children of a name. -/
def ValidMembers : List (FieldOf DataType) → (Text → Value) → Prop
  | [], _ => True
  | ⟨name, type, _, _⟩ :: rest, held => ValidCell type (held name) ∧ ValidMembers rest held

def ValidMember : List (FieldOf DataType) → Text → Value → Prop
  | [], _, _ => False
  | ⟨name, type, _, _⟩ :: rest, tag, value =>
      name = tag ∧ ValidCell type value ∨ ValidMember rest tag value

end

end

example (valid : DataType → Value → Prop) : ValidCell valid (.list []) .null := by
  simp [ValidCell]

theorem validCell_null (valid : DataType → Value → Prop) : ∀ type, ValidCell valid type .null
  | .dictionary _ dictionary _ _ => validCell_null valid dictionary
  | .list _ | .fixedSizeList _ _ | .map _ _ | .struct _ | .union _ _ _ | .null | .int _ _
  | .float _ | .binary | .utf8 | .bool | .decimal _ _ _ | .date _ | .time _ _ | .timestamp _ _
  | .interval _ | .fixedSizeBinary _ | .duration _ | .largeBinary | .largeUtf8 => .inl rfl

/-- Columns of the types without children give their cells back, and a null only for a null. -/
structure LeafColumns (library : VectorLibrary) (valid : DataType → Value → Prop) : Prop where
  restored : ∀ type cells, type.isLeaf = true →
    (∀ cell ∈ cells, cell = .null ∨ valid type cell) →
    ∃ column, writeCanonicalColumn library type cells = .ok column ∧
      ∀ (index : Nat) cell, cells[index]? = some cell → readFromData library type column index = cell
  present : ∀ type cells column (index : Nat) cell, type.isLeaf = true → type ≠ .null →
    writeCanonicalColumn library type cells = .ok column → cells[index]? = some cell →
    readFromData library type column index = .null → cell = .null

section

variable {library : VectorLibrary} (nested : NestedVectors library)

/-- A column of the type can be made of these cells. -/
def Writes (type : DataType) (cells : List Value) : Prop :=
  ∃ data, buildColumnData nested type cells = .ok data

/-- The column made of the cells `written` is read as the cells `held`. -/
def Gives (type : DataType) (written held : List Value) : Prop :=
  ∃ data, buildColumnData nested type written = .ok data ∧
    ∀ (index : Nat) cell, held[index]? = some cell →
      readCanonicalValue library type data index = cell

/-- Building the column of these cells and reading it gives them back. -/
def RoundTrips (type : DataType) (cells : List Value) : Prop :=
  Gives nested type cells cells

/-- The library's column of a dictionary is read as the cells `held`. -/
def NestedVectors.Keeps (type : DataType) (written held : List Value) : Prop :=
  ∃ data, nested.vectorFromArray type written = .ok data ∧
    ∀ (index : Nat) cell, held[index]? = some cell →
      readCanonicalValue library type data index = cell

/-- What a valid cell of a fixed-size list takes in the child. -/
def slotItems (listSize : Nat) (row : Value) : List Value :=
  if isCanonicalNull row then List.replicate listSize .null else itemsOf row

/-- The pairs of a map cell. -/
def pairList (row : Value) : List (Value × Value) :=
  match pairsOf row with
  | .ok pairs => pairs
  | .error _ => []

mutual

/-- The cells `written` to a column, which are those it is to give back but for what a struct puts
in place of a null member, come back as the cells `held`. -/
def Restores : DataType → List Value → List Value → Prop
  | .null, _, _ => True
  | .dictionary id dictionary indices ordered, written, held =>
      nested.Keeps (.dictionary id dictionary indices ordered) written held
  | .union _ _ _, written, _ => written = []
  | .list children, written, held =>
      written = held ∧ RestoresItems children (held.flatMap itemsOf)
  | .fixedSizeList listSize children, written, held =>
      written = held ∧ RestoresItems children (held.flatMap (slotItems listSize))
  | .map _ children, written, held =>
      written = held ∧ RestoresPairs children (held.flatMap pairList)
  | .struct children, written, held =>
      written = held ∧ ((∃ row ∈ held, row ≠ .null) →
        text "__proto__" ∉ children.map FieldOf.name) ∧ RestoresMembers children 0 held
  | _, written, held => written = held

def RestoresItems : List (FieldOf DataType) → List Value → Prop
  | [], _ => False
  | ⟨_, type, _, _⟩ :: _, items => items = [] ∨ Restores type items items

def RestoresPairs : List (FieldOf DataType) → List (Value × Value) → Prop
  | ⟨_, .struct (⟨_, keyType, _, _⟩ :: ⟨_, valueType, _, _⟩ :: _), _, _⟩ :: _, pairs =>
      pairs = [] ∨ Restores keyType (pairs.map Prod.fst) (pairs.map Prod.fst) ∧
        Restores valueType (pairs.map Prod.snd) (pairs.map Prod.snd)
  | _, _ => False

/-- A child whose name a later one repeats is only written. -/
def RestoresMembers : List (FieldOf DataType) → Nat → List Value → Prop
  | [], _, _ => True
  | ⟨name, type, _, _⟩ :: rest, index, rows =>
      (if name ∈ rest.map FieldOf.name then Writes nested type (rows.map (childCell name index))
        else Restores type (rows.map (childCell name index)) (rows.map (rowMember · name))) ∧
      RestoresMembers rest (index + 1) rows

end

example : Restores nested .null [.bool true] [.null] := by simp [Restores]

end

end VgiWorker.Arrow.Nested
