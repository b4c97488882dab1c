import VgiWorker.Arrow.NestedData
import VgiWorker.Protocol.Arguments

/-!
# User state

The state an author's producer keeps between turns, as the one-row batch in which
the continuation token carries it. The types of its columns are inferred from the
values.
-/

set_option autoImplicit false

namespace VgiWorker.Protocol.UserState

open VgiWorker.Js VgiWorker.Arrow

/-- The objects without an Arrow type. -/
inductive Unsupported where
  | map
  | set
  | date
  | regExp
  | function
  | symbol

inductive UserValue where
  | undefined
  | null
  | bool (value : Bool)
  | number (value : Number)
  | bigint (value : Int)
  | string (value : Text)
  /-- A `Uint8Array`. -/
  | bytes (value : Bytes)
  | arrayBuffer (value : Bytes)
  /-- Any other typed array, or a `DataView`, which has no elements. -/
  | view (value : Bytes) (elements : List (Number ⊕ Int))
  | array (elements : List UserValue)
  | object (members : List (Text × UserValue))
  | classInstance (className : Text) (members : List (Text × UserValue))
  | unsupported (kind : Unsupported)

namespace UserValue

def isNullish : UserValue → Bool
  | .undefined | .null => true
  | _ => false

def indexEntries (elements : List UserValue) : List (Text × UserValue) :=
  (elements.zipIdx).map fun entry => (Number.decimal entry.2, entry.1)

/-- `Object.entries(value)`. -/
def entries : UserValue → List (Text × UserValue)
  | .object members | .classInstance _ members => members
  | .array elements => indexEntries elements
  | .string value => indexEntries (value.map fun unit => .string [unit])
  | .bytes value => indexEntries (value.map fun byte => .number (Number.ofNat byte.toNat))
  | .view _ elements => indexEntries (elements.map (Sum.elim .number .bigint))
  | _ => []

mutual

/-- The value as the codecs see it: `undefined` is null, a typed array its bytes, an instance an
object. -/
def toRich : UserValue → Rich
  | .undefined | .null => .null
  | .bool value => .bool value
  | .number value => .number value
  | .bigint value => .bigint value
  | .string value => .string value
  | .bytes value | .view value _ => .bytes value
  | .array elements => .array (toRichElements elements)
  | .object members | .classInstance _ members => .object (toRichMembers members)
  | .arrayBuffer _ | .unsupported _ => .object []

def toRichElements : List UserValue → List Rich
  | [] => []
  | element :: rest => toRich element :: toRichElements rest

def toRichMembers : List (Text × UserValue) → List (Text × Rich)
  | [] => []
  | (name, value) :: rest => (name, toRich value) :: toRichMembers rest

end

mutual

def ofRich : Rich → UserValue
  | .null => .null
  | .bool value => .bool value
  | .number value => .number value
  | .bigint value => .bigint value
  | .string value => .string value
  | .bytes value => .bytes value
  | .date _ => .unsupported .date
  | .array elements => .array (ofRichElements elements)
  -- The members were assigned one after the other, and assigning `__proto__` adds none.
  | .object entries => .object (ofRichMembers entries)

def ofRichElements : List Rich → List UserValue
  | [] => []
  | element :: rest => ofRich element :: ofRichElements rest

def ofRichMembers : List (Text × Rich) → List (Text × UserValue)
  | [] => []
  | (name, value) :: rest =>
      if name = text "__proto__" then ofRichMembers rest
      else (name, ofRich value) :: ofRichMembers rest

end

end UserValue

/-! ## Inference -/

def unsupportedText : Unsupported → Text
  | .map => text "inferFieldType: Map is not supported in userState (use a plain object instead)"
  | .set =>
      text "inferFieldType: Set is not supported in userState (use an array or plain object " ++
        text "instead)"
  | .date =>
      text "inferFieldType: Date is not supported in userState (use a number (epoch ms) or ISO " ++
        text "string instead)"
  | .regExp =>
      text "inferFieldType: RegExp is not supported in userState (use a string pattern instead)"
  | .function => text "inferFieldType: unsupported type 'function'"
  | .symbol => text "inferFieldType: unsupported type 'symbol'"

def mixedArrayText (elementSig sig : Text) : Text :=
  text "inferFieldType: arrays in userState must be homogeneous; found both '" ++ elementSig ++
    text "' and '" ++ sig ++ text "' in the same array (split the values into separate fields, " ++
    text "or normalize them to one type)"

/-- A nullable field. -/
def stateField (name : Text) (type : DataType) : Field :=
  ⟨name, type, true, OrderedMap.empty⟩

def listChildName : Text := text "item"

/-- The element type of an array with nothing to infer from. -/
def emptyListElementType : DataType := .utf8

mutual

def inferFieldType : UserValue → Except Text DataType
  | .undefined | .null => .ok .null
  | .number _ => .ok (.float .double)
  | .bigint _ => .ok (.int 64 true)
  | .string _ => .ok .utf8
  | .bool _ => .ok .bool
  | .bytes _ | .arrayBuffer _ | .view _ _ => .ok .binary
  | .array elements => do
      let elementType ← inferElementType none elements
      .ok (.list [stateField listChildName elementType])
  | .object members | .classInstance _ members => do
      let fields ← inferFields members
      .ok (.struct fields)
  | .unsupported kind => .error (unsupportedText kind)

/-- The type the elements share, nulls apart; `elementType` is that of the elements before. -/
def inferElementType (elementType : Option DataType) : List UserValue → Except Text DataType
  | [] => .ok (elementType.getD emptyListElementType)
  | element :: rest =>
      if element.isNullish then inferElementType elementType rest
      else do
        let type ← inferFieldType element
        match elementType with
        | none => inferElementType (some type) rest
        | some first =>
            if typeSignature type ≠ typeSignature first then
              .error (mixedArrayText (typeSignature first) (typeSignature type))
            else inferElementType (some first) rest

def inferFields : List (Text × UserValue) → Except Text (List Field)
  | [] => .ok []
  | (name, value) :: rest => do
      let type ← inferFieldType value
      let fields ← inferFields rest
      .ok (stateField name type :: fields)

end

/-! ## Arrow IPC -/

/-- The types that are inferred. -/
inductive UserType : DataType → Prop where
  | null : UserType .null
  | number : UserType (.float .double)
  | bigint : UserType (.int 64 true)
  | string : UserType .utf8
  | bool : UserType .bool
  | bytes : UserType .binary
  | array (item : Field) (inner : UserType item.type) : UserType (.list [item])
  | object (fields : List Field) (each : ∀ field ∈ fields, UserType field.type) :
      UserType (.struct fields)

mutual

/-- A type as the reader of the stream sees it. -/
def decodedType : DataType → DataType
  | .list children => .list (decodedFields children)
  | .struct children => .struct (decodedFields children)
  | type => type

def decodedFields : List (FieldOf DataType) → List (FieldOf DataType)
  | [] => []
  | ⟨name, type, nullable, metadata⟩ :: rest =>
      ⟨receivedName name, decodedType type, nullable, metadata⟩ :: decodedFields rest

end

mutual

/-- A cell as the reader sees it: the names of objects are the received ones. -/
def decodedCell : DataType → Value → Value
  | .list children, .array elements => .array (decodedElements children elements)
  | .struct children, .object members =>
      .object (OrderedMap.ofEntries (decodedMembers children members)).entries
  | _, value => value

def decodedElements : List (FieldOf DataType) → List Value → List Value
  | [], elements => elements
  | ⟨_, type, _, _⟩ :: _, elements => elements.map (decodedCell type)

def decodedMembers : List (FieldOf DataType) → List (Text × Value) → List (Text × Value)
  | [], _ => []
  | ⟨name, type, _, _⟩ :: rest, members =>
      (receivedName name, decodedCell type ((lookupEntry members name).getD .null)) ::
        decodedMembers rest members

end

/-- What a stream of the batch reads back as. -/
def decodedBatch (batch : Batch) : Batch :=
  { schema := ⟨decodedFields batch.schema.fields, batch.schema.metadata⟩
    columns := (batch.schema.fields.zip batch.columns).map fun entry =>
      entry.2.map (decodedCell entry.1.type)
    numRows := batch.numRows
    metadata := batch.metadata }

/-- Arrow IPC streams of one batch, for the types of user state. -/
structure IpcLibrary where
  Stream : Type
  serializeBatch : Batch → Stream
  deserializeBatch : Stream → Except Text Batch
  received : ∀ batch, (∀ field ∈ batch.schema.fields, UserType field.type) →
    deserializeBatch (serializeBatch batch) = .ok (decodedBatch batch)

/-! ## The state in the token -/

section

variable {library : VectorLibrary} (nested : Nested.NestedVectors library) (ipc : IpcLibrary)
  (dateText : Number → Text)

def stateBatch (entries : List (Text × UserValue)) : Except Text Batch := do
  let fields ← inferFields entries
  Nested.batchFromColumns nested dateText (entries.map fun entry => (entry.1, [entry.2.toRich]))
    ⟨fields, OrderedMap.empty⟩

/-- The bytes of a state; a state without entries is a batch without rows and fields. -/
def serializeUserState (userState : UserValue) : Except Text (Option ipc.Stream) :=
  if userState.isNullish then .ok none
  else do
    let batch ← stateBatch nested dateText userState.entries
    .ok (some (ipc.serializeBatch batch))

def deserializeUserState : Option ipc.Stream → Except Text UserValue
  | none => .ok .null
  | some bytes => do
      let batch ← ipc.deserializeBatch bytes
      if batch.numRows = 0 then
        if batch.schema.fields.isEmpty then .ok (.object []) else .ok .null
      else do
        let result ← (rowAt dateText batch 0).mapError codecMessage
        .ok (.object (UserValue.ofRichMembers result))

end

end VgiWorker.Protocol.UserState
