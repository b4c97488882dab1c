import VgiWorker.Arrow.Codec

/-!
# Arguments on the wire

A one-row batch with an `args` struct whose children are named `positional_<i>`
and `named_<name>`.
-/

set_option autoImplicit false

namespace VgiWorker.Protocol

open VgiWorker.Js VgiWorker.Arrow

structure Arguments where
  positional : List Rich
  named : OrderedMap Text Rich
  argumentsSchema : Option Schema

def Arguments.empty : Arguments := ⟨[], .empty, none⟩

inductive ArgumentsFault where
  | rangeError (message : Text)
  | codec (fault : CodecError)
  | ipc (message : Text)
  deriving DecidableEq

def positionalPrefix : Text := text "positional_"

def namedPrefix : Text := text "named_"

def fromCodec {α : Type} (result : Except CodecError α) : Except ArgumentsFault α :=
  match result with
  | .ok value => .ok value
  | .error fault => .error (.codec fault)

/-! ## Writing -/

def inferScalarType : Rich → DataType
  | .null => .null
  | .string _ => .utf8
  | .bool _ => .bool
  | .number _ => .int 64 true
  | .bigint _ => .int 64 true
  | .bytes _ => .binary
  | _ => .utf8

/-- The children of the struct with their values, whose names are pairwise distinct. -/
def structValues (args : Arguments) : List (Text × Rich) :=
  (args.positional.zipIdx.map fun entry => (positionalPrefix ++ Number.decimal entry.2, entry.1)) ++
    args.named.entries.map fun entry => (namedPrefix ++ entry.1, entry.2)

def argumentField (entry : Text × Rich) : Field :=
  ⟨entry.1, inferScalarType entry.2, true, .empty⟩

/-- A number becomes a bigint in a 64-bit integer child. -/
def coerceArgument (value : Rich) : Except ArgumentsFault Rich :=
  match inferScalarType value, value with
  | .int 64 _, .number number =>
      match number.toInt? with
      | some integer => .ok (.bigint integer)
      | none =>
          .error (.rangeError (text "The number " ++ number.toText ++
            text " cannot be converted to a BigInt because it is not an integer"))
  | _, value => .ok value

def coerceEntry (entry : Text × Rich) : Except ArgumentsFault (Text × Rich) := do
  let value ← coerceArgument entry.2
  .ok (entry.1, value)

mutual

/-- A canonical value as a column of the type holds it: text is stored as UTF-8. -/
def storeCell : DataType → Value → Value
  | .utf8, .string value => .string (dropBom (toWellFormed value))
  | .largeUtf8, .string value => .string (dropBom (toWellFormed value))
  | .struct children, .object members => .object (storeMembers children members)
  | _, value => value

def storeMembers : List (FieldOf DataType) → List (Text × Value) → List (Text × Value)
  | [], _ => []
  | ⟨name, type, _, _⟩ :: rest, members =>
      (name, storeCell type ((lookupEntry members name).getD .null)) :: storeMembers rest members

end

/-! ### Through Arrow IPC -/

/-- A name of the schema as the reader decodes it. -/
def receivedName (name : Text) : Text :=
  dropBom (toWellFormed name)

mutual

/-- A type as the reader of the stream sees it, for the nested types written here. -/
def receiveType : DataType → DataType
  | .struct children => .struct (receiveFields children)
  | type => type

def receiveFields : List (FieldOf DataType) → List (FieldOf DataType)
  | [] => []
  | ⟨name, type, nullable, metadata⟩ :: rest =>
      ⟨receivedName name, receiveType type, nullable, metadata⟩ :: receiveFields rest

end

mutual

/-- A cell as the reader sees it: an object's keys are the received names. -/
def receiveCell : DataType → Value → Value
  | .struct children, .object members =>
      .object (OrderedMap.ofEntries (receiveMembers children members)).entries
  | _, value => value

def receiveMembers : List (FieldOf DataType) → List (Text × Value) → List (Text × Value)
  | [], _ => []
  | ⟨name, type, _, _⟩ :: rest, members =>
      (receivedName name, receiveCell type ((lookupEntry members name).getD .null)) ::
        receiveMembers rest members

end

/-- What a stream of the batch reads back as. -/
def receiveBatch (batch : Batch) : Batch :=
  { schema := ⟨receiveFields batch.schema.fields, batch.schema.metadata⟩
    columns := (batch.schema.fields.zip batch.columns).map fun entry =>
      entry.2.map (receiveCell entry.1.type)
    numRows := batch.numRows
    metadata := batch.metadata }

section

variable (dateText : Number → Text)

/-- The batch `serializeArguments` writes. -/
def argumentsBatch (args : Arguments) : Except ArgumentsFault Batch := do
  let structFields := (structValues args).map argumentField
  let structRow ← (structValues args).mapM coerceEntry
  let canonical ← fromCodec (richToCanonical dateText (.struct structFields) (.object structRow))
  .ok
    { schema := ⟨[⟨text "args", .struct structFields, true, .empty⟩], .empty⟩
      columns := [[storeCell (.struct structFields) canonical]]
      numRows := 1
      metadata := none }

def serializeArguments (serializeBatch : Batch → Bytes) (args : Arguments) :
    Except ArgumentsFault Bytes := do
  let batch ← argumentsBatch dateText args
  .ok (serializeBatch batch)

/-! ## Reading -/

/-- `parseInt(string, 10)`; `none` is NaN. -/
def parseInt? (string : Text) : Option Int :=
  let (negative, unsigned) := Number.takeSign (string.dropWhile Number.isWhiteSpace)
  let digits := unsigned.takeWhile Number.isDigit
  if digits = [] then none
  else some (if negative then -(Number.natOfDigits digits : Int) else Number.natOfDigits digits)

/-- `while (positional.length <= idx) positional.push(null); positional[idx] = value`. -/
def setPositional (positional : List Rich) (idx : Option Int) (value : Rich) : List Rich :=
  match idx with
  | some (.ofNat index) =>
      (positional ++ List.replicate (index + 1 - positional.length) Rich.null).set index value
  -- The array gets a property that is no element.
  | _ => positional

/-- The arguments read so far with a member of the struct added. -/
def addMember (read : List Rich × OrderedMap Text Rich) (member : Text × Rich) :
    List Rich × OrderedMap Text Rich :=
  if positionalPrefix.isPrefixOf member.1 then
    (setPositional read.1 (parseInt? (member.1.drop positionalPrefix.length)) member.2, read.2)
  else if namedPrefix.isPrefixOf member.1 then
    (read.1, read.2.set (member.1.drop namedPrefix.length) member.2)
  else read

/-- The same for a flat column, of the older layout. -/
def addColumn (read : List Rich × OrderedMap Text Rich) (field : Field) (value : Rich) :
    List Rich × OrderedMap Text Rich :=
  if positionalPrefix.isPrefixOf field.name ∨ namedPrefix.isPrefixOf field.name then
    addMember read (field.name, value)
  else if field.metadata.get? (text "vgi_arg") = some (text "named") then
    (read.1, read.2.set field.name value)
  else (setPositional read.1 (parseInt? field.name) value, read.2)

def addColumns (batch : Batch) (read : List Rich × OrderedMap Text Rich) :
    List Field → Except ArgumentsFault (List Rich × OrderedMap Text Rich)
  | [] => .ok read
  | field :: rest => do
      let value ←
        match batch.getChild field.name with
        | some column => fromCodec (canonicalToRich dateText field.type (readCanonicalValue column 0))
        | none => .ok .null
      addColumns batch (addColumn read field value) rest

def structMembers : Rich → List (Text × Rich)
  | .object entries => entries
  | _ => []

def argumentsOfBatch (batch : Batch) : Except ArgumentsFault Arguments :=
  if batch.numRows = 0 then .ok .empty
  else
    match batch.schema.fields.find? (fun field => field.name = text "args"),
        batch.getChild (text "args") with
    | some field, some argsCol => do
        let structVal ← fromCodec (canonicalToRich dateText field.type (readCanonicalValue argsCol 0))
        let (positional, named) := (structMembers structVal).foldl addMember ([], .empty)
        let structSchema : Schema :=
          match field.type.children? with
          | some children => ⟨children, .empty⟩
          | none => batch.schema
        .ok ⟨positional, named, some structSchema⟩
    | _, _ =>
        if batch.schema.fields = [] then .ok .empty
        else do
          let (positional, named) ← addColumns dateText batch ([], .empty) batch.schema.fields
          .ok ⟨positional, named, some batch.schema⟩

def deserializeArguments (deserializeBatch : Bytes → Except Text Batch) (bytes : Bytes) :
    Except ArgumentsFault Arguments :=
  if bytes = [] then .ok .empty
  else
    match deserializeBatch bytes with
    | .ok batch => argumentsOfBatch dateText batch
    | .error message => .error (.ipc message)

end

end VgiWorker.Protocol
