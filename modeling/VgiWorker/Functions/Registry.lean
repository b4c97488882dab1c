import Mathlib.Data.List.Sort
import VgiWorker.Data.FirstBest
import VgiWorker.Data.Result
import VgiWorker.Js.Json
import VgiWorker.Protocol.Arguments

/-!
# The function registry

Functions by name, by schema and by catalog, and the choice among the overloads of
one name. A function is an object: the registry holds references to it. Parameters are
`toLowerCase` and the order of schema paths in a message, which follows the locale.
-/

set_option autoImplicit false

namespace VgiWorker.Functions.Registry

open VgiWorker.Js VgiWorker.Arrow VgiWorker.Protocol

/-- A number for a positional parameter, a name for a named one. -/
inductive Position where
  | index (index : Nat)
  | named (key : Text)

/-- The fields of an `ArgumentSpec` that resolution reads. -/
structure ArgumentSpec where
  position : Position
  arrowType : DataType
  isTableInput : Bool
  isAnyType : Bool
  isVarargs : Bool
  isConst : Bool

/-- The fields of a `VgiFunction` that resolution reads. -/
structure VgiFunction where
  name : Text
  kind : Text
  inputFromArgs : Bool
  argumentSpecs : List ArgumentSpec

structure OverloadContext where
  arguments : Option Arguments
  inputSchema : Option Schema
  isScalar : Option Bool
  schemaPath : Option (List Text)
  catalogName : Option Text

namespace ArgumentSpec

def index? (spec : ArgumentSpec) : Option Nat :=
  match spec.position with
  | .index index => some index
  | .named _ => none

/-- A parameter that no type is compared with. -/
def untyped (spec : ArgumentSpec) : Bool :=
  spec.isAnyType || spec.arrowType.isNull

end ArgumentSpec

/-! ## Scoring -/

def exactMatchScore : Nat := 2

def familyMatchScore : Nat := 1

def typesIdentical (actual declared : DataType) : Bool :=
  typeSignature actual = typeSignature declared

def typesCompatible (actual declared : DataType) : Bool :=
  typesIdentical actual declared ||
  (actual.isInt && declared.isInt) ||
  ((actual.isFloat || actual.isDecimal) && (declared.isFloat || declared.isDecimal)) ||
  (actual.isUtf8 && declared.isUtf8) ||
  (actual.isBinary && declared.isBinary) ||
  (actual.isBool && declared.isBool)

/-- The score of one parameter against the type it meets; `none` where the types do not match. -/
def scoreType (spec : ArgumentSpec) (actual : Option DataType) : Option Nat :=
  if spec.untyped then some 0
  else match actual with
    | none => some 0
    | some actual =>
        if typesIdentical actual spec.arrowType then some exactMatchScore
        else if typesCompatible actual spec.arrowType then some familyMatchScore
        else none

def scoreSlots : List (ArgumentSpec × Option DataType) → Option Nat
  | [] => some 0
  | slot :: rest => do
      let score ← scoreType slot.1 slot.2
      let others ← scoreSlots rest
      some (score + others)

/-- The last of the parameters that takes any number of arguments. -/
def varArgsSpec (specs : List ArgumentSpec) : Option ArgumentSpec :=
  specs.reverse.find? ArgumentSpec.isVarargs

/-- The parameters beside the types that they meet, with the tail of the varargs. -/
def slotsOf (specs : List ArgumentSpec) (actualTypes : List (Option DataType)) :
    List (ArgumentSpec × Option DataType) :=
  specs.zip actualTypes ++
    match varArgsSpec specs with
    | none => []
    | some spec => (actualTypes.drop specs.length).map fun actual => (spec, actual)

def scoreTypes (specs : List ArgumentSpec) (actualTypes : List (Option DataType)) : Option Nat :=
  scoreSlots (slotsOf specs actualTypes)

def argumentTypes (args : Arguments) : List (Option DataType) :=
  (List.range args.positional.length).map fun index =>
    (args.argumentsSchema.bind fun schema => schema.fields.find? fun field =>
      field.name = positionalPrefix ++ Number.decimal index).map FieldOf.type

/-- The types of the input columns at the positions of the parameters, and behind the varargs. -/
def inputTypes (specs : List ArgumentSpec) (fields : List Field) : List (Option DataType) :=
  (specs.map fun spec => (spec.index?.bind fun position => fields[position]?).map FieldOf.type) ++
    match (varArgsSpec specs).bind ArgumentSpec.index? with
    | none => []
    | some start => (fields.drop (start + 1)).map fun field => some field.type

def constSpecs (func : VgiFunction) : List ArgumentSpec :=
  func.argumentSpecs.filter ArgumentSpec.isConst

def columnSpecs (func : VgiFunction) : List ArgumentSpec :=
  func.argumentSpecs.filter fun spec => !spec.isConst && spec.index?.isSome

def positionalSpecs (func : VgiFunction) : List ArgumentSpec :=
  func.argumentSpecs.filter fun spec => spec.index?.isSome && !spec.isTableInput

/-- Sorted by position, which is stable. -/
def sortedSpecs (specs : List ArgumentSpec) : List ArgumentSpec :=
  specs.insertionSort fun first second => first.index?.getD 0 ≤ second.index?.getD 0

/-- The score of a function's parameter types; `none` where a type does not match. -/
def typeScore (args : Arguments) (inputSchema : Option Schema) (isScalar : Bool)
    (func : VgiFunction) : Option Nat :=
  if isScalar then do
    let score ← scoreTypes (constSpecs func) (argumentTypes args)
    match inputSchema with
    | none => some score
    | some schema => do
        let columns ← scoreTypes (columnSpecs func) (inputTypes (columnSpecs func) schema.fields)
        some (score + columns)
  else
    let specs := sortedSpecs (positionalSpecs func)
    scoreTypes specs <|
      if func.inputFromArgs then
        match inputSchema with
        | none => []
        | some schema => inputTypes specs schema.fields
      else argumentTypes args

/-- The number of arguments that the parameters take. -/
def takesCount (specs : List ArgumentSpec) (count : Nat) : Bool :=
  if specs.any ArgumentSpec.isVarargs then
    (specs.filter fun spec => !spec.isVarargs).length ≤ count
  else specs.length = count

def namedKeys (func : VgiFunction) : List Text :=
  func.argumentSpecs.filterMap fun spec =>
    match spec.position with
    | .index _ => none
    | .named key => some key

/-- The filter of the first stage, by the number of arguments. -/
def countMatches (args : Arguments) (inputSchema : Option Schema) (isScalar : Bool)
    (func : VgiFunction) : Bool :=
  if isScalar then takesCount (constSpecs func) args.positional.length
  else if func.inputFromArgs then
    takesCount (positionalSpecs func) ((inputSchema.map fun schema => schema.fields.length).getD 0) &&
      args.named.keys.all fun key => (namedKeys func).contains key
  else takesCount (positionalSpecs func) args.positional.length

section

variable (object : Nat → VgiFunction)

/-- The candidates whose types match, with their scores. -/
def scoredCandidates (args : Arguments) (inputSchema : Option Schema) (isScalar : Bool)
    (candidates : List Nat) : List (Nat × Nat) :=
  candidates.filterMap fun ref =>
    (typeScore args inputSchema isScalar (object ref)).map fun score => (score, ref)

def filterByArgumentTypes (args : Arguments) (inputSchema : Option Schema) (isScalar : Bool)
    (candidates : List Nat) : List Nat :=
  (bestOf Prod.fst (scoredCandidates object args inputSchema isScalar candidates)).map Prod.snd

def isScalarCall (context : OverloadContext) (candidates : List Nat) : Bool :=
  context.isScalar.getD
    ((candidates.head?.map fun ref => decide ((object ref).kind = text "scalar")).getD false)

def countedCandidates (args : Arguments) (context : OverloadContext) (candidates : List Nat) :
    List Nat :=
  candidates.filter fun ref =>
    countMatches args context.inputSchema (isScalarCall object context candidates) (object ref)

/-- `_disambiguate`: one function of candidates that are scoped already. -/
def disambiguate (candidates : List Nat) (context : OverloadContext) : Option Nat :=
  match candidates, context.arguments with
  | [single], _ => some single
  | _, none => candidates.head?
  | _, some args =>
      let isScalar := isScalarCall object context candidates
      let counted := countedCandidates object args context candidates
      let remaining :=
        if counted.isEmpty ∨ isScalar ∧ counted.length = candidates.length then candidates
        else counted
      match remaining with
      | [single] => some single
      | _ =>
          match filterByArgumentTypes object args context.inputSchema isScalar remaining with
          | first :: _ => some first
          | [] => candidates.head?

end

/-! ## Keys -/

section

variable (toLowerCase : Text → Text) (sortPaths : List (List Text) → List (List Text))

inductive RegistryFault where
  | emptySchemaPath
  | notInSchema (name : Text) (path : List Text) (available : List (List Text))
  | unknownFunction (name : Text)

def schemaPathDisplay (path : List Text) : Text :=
  joinText (text ".") (path.map stringifyText)

def RegistryFault.message : RegistryFault → Text
  | .emptySchemaPath => text "schema paths must contain at least one non-empty component"
  | .notInSchema name path available =>
      text "Function '" ++ name ++ text "' is not registered in schema " ++
        schemaPathDisplay path ++ text ". It is available in: [" ++
        joinText (text ", ") ((sortPaths available).map schemaPathDisplay) ++ text "]"
  | .unknownFunction name => text "Unknown function '" ++ name ++ text "'"

def schemaPathKey (path : List Text) : Except RegistryFault Text :=
  if path.isEmpty ∨ path.any List.isEmpty then .error .emptySchemaPath
  else .ok (joinText [0] (path.map toLowerCase))

def schemaKey (schemaPath : List Text) (functionName : Text) : Except RegistryFault Text := do
  let key ← schemaPathKey toLowerCase schemaPath
  .ok (key ++ [1] ++ functionName)

def catalogKey (catalogName : Text) (schemaKey : Text) : Text :=
  toLowerCase catalogName ++ [0] ++ schemaKey

/-! ## The registry -/

structure FunctionRegistry where
  functions : OrderedMap Text (List Nat)
  bySchema : OrderedMap Text (List Nat)
  byCatalog : OrderedMap Text (List Nat)

def FunctionRegistry.empty : FunctionRegistry :=
  ⟨.empty, .empty, .empty⟩

variable (object : Nat → VgiFunction)

def register (registry : FunctionRegistry) (ref : Nat) : FunctionRegistry :=
  let name := (object ref).name
  { registry with
    functions := registry.functions.set name ((registry.functions.get? name).getD [] ++ [ref]) }

/-- `add` of `registerInSchema`: a function is listed once under a key. -/
def addTo (map : OrderedMap Text (List Nat)) (key : Text) (ref : Nat) :
    OrderedMap Text (List Nat) :=
  match map.get? key with
  | none => map.set key [ref]
  | some bucket => if ref ∈ bucket then map else map.set key (bucket ++ [ref])

def registerInSchema (registry : FunctionRegistry) (ref : Nat) (schemaPath : List Text)
    (catalogName : Option Text) : Except RegistryFault FunctionRegistry := do
  let key ← schemaKey toLowerCase schemaPath (object ref).name
  let declared := { registry with bySchema := addTo registry.bySchema key ref }
  match catalogName with
  | some (unit :: rest) =>
      .ok { declared with
        byCatalog := addTo registry.byCatalog (catalogKey toLowerCase (unit :: rest) key) ref }
  | _ => .ok declared

/-- The part of a key behind its last separator, and the part before. -/
def splitKey (key : Text) : Text × Text :=
  ((key.reverse.takeWhile fun unit => unit != 1).reverse,
    ((key.reverse.dropWhile fun unit => unit != 1).drop 1).reverse)

/-- `schemasFor`, in the order of the index. -/
def schemasFor (registry : FunctionRegistry) (functionName : Text) : List (List Text) :=
  registry.bySchema.keys.filterMap fun key =>
    if (splitKey key).1 = functionName then some ((splitKey key).2.splitOn 0) else none

/-- The candidates of a lookup by name: those of every schema. -/
def namedCandidates (registry : FunctionRegistry) (name : Text) :
    Except RegistryFault (List Nat) :=
  match registry.functions.get? name with
  | some (first :: rest) => .ok (first :: rest)
  | _ => .error (.unknownFunction name)

/-- The functions of a catalog under a schema key; a missing or empty name is no catalog. -/
def catalogBucket (registry : FunctionRegistry) (key : Text) : Option Text → Option (List Nat)
  | some (unit :: rest) => registry.byCatalog.get? (catalogKey toLowerCase (unit :: rest) key)
  | _ => none

/-- The candidates in the schema that a call names: those of its catalog, or else of the schema,
and a function that no schema declares. -/
def schemaCandidates (registry : FunctionRegistry) (name : Text) (schemaPath : List Text)
    (catalogName : Option Text) : Except RegistryFault (List Nat) := do
  let key ← schemaKey toLowerCase schemaPath name
  match catalogBucket toLowerCase registry key catalogName, registry.bySchema.get? key with
  | some (first :: rest), _ => .ok (first :: rest)
  | _, some (first :: rest) => .ok (first :: rest)
  | _, _ => do
      let candidates ← namedCandidates registry name
      let schemas := schemasFor registry name
      if schemas.isEmpty then .ok candidates else .error (.notInSchema name schemaPath schemas)

def scopedCandidates (registry : FunctionRegistry) (name : Text) (context : OverloadContext) :
    Except RegistryFault (List Nat) :=
  match context.schemaPath with
  | none => namedCandidates registry name
  | some path => schemaCandidates toLowerCase registry name path context.catalogName

def get (registry : FunctionRegistry) (name : Text) (context : OverloadContext) :
    Except RegistryFault Nat := do
  let candidates ← scopedCandidates toLowerCase registry name context
  match disambiguate object candidates context with
  | some ref => .ok ref
  | none => .error (.unknownFunction name)

/-! ## Building a registry -/

inductive Registration where
  | register (ref : Nat)
  | registerInSchema (ref : Nat) (schemaPath : List Text) (catalogName : Option Text)

def perform (registry : FunctionRegistry) : Registration → Except RegistryFault FunctionRegistry
  | .register ref => .ok (register object registry ref)
  | .registerInSchema ref path catalogName =>
      registerInSchema toLowerCase object registry ref path catalogName

/-- The registry after a run of registrations. -/
def build (log : List Registration) : Except RegistryFault FunctionRegistry :=
  log.foldlM (perform toLowerCase object) FunctionRegistry.empty

end

end VgiWorker.Functions.Registry
