import VgiWorker.Arrow.Types
import VgiWorker.Js.Json

/-!
# Pushdown filter documents

The expressions, predicates and filter sets a worker holds for one scan.
-/

set_option autoImplicit false

namespace VgiWorker.FilterPushdown

open VgiWorker.Js VgiWorker.Arrow

def filterEncoding : Text := text "vgi.filters.v2"

def filterVersion : Text := text "2"

def duckdbStandardV1 : Text := text "vgi.duckdb.standard.v1"

def noEvaluationContext : Text := text "vgi.none.v1"

def duckdbSessionContext : Text := text "vgi.duckdb.session.v1"

inductive ComparisonOp where
  | eq | ne | lt | le | gt | ge | distinctFrom | notDistinctFrom
  deriving DecidableEq

inductive ArithmeticOp where
  | add | subtract | multiply | divide | modulo
  deriving DecidableEq

inductive PredicateMode where
  | required | advisory
  deriving DecidableEq

inductive PredicateSource where
  | query | join | topN | splitRefinement | other
  deriving DecidableEq

inductive StandardFilterFunction where
  | startsWith | endsWith | contains | listContains
  deriving DecidableEq

inductive NullHandling where
  | pass | reject
  deriving DecidableEq

structure FunctionIdentity where
  nameSpace : Text
  name : Text
  version : Nat
  deriving DecidableEq

inductive FilterFunction where
  | standard (function : StandardFilterFunction)
  | extension (identity : FunctionIdentity)
  deriving DecidableEq

structure EvaluationContext where
  profile : Text
  timeZone : Option Text := none
  calendar : Option Text := none
  defaultCollation : Option Text := none
  ieeeFloatingPointOps : Option Bool := none
  integerDivision : Option Bool := none
  providerFingerprint : Option Text := none
  deriving DecidableEq

inductive FilterSet where
  | literal (valueRef : Nat) (field : Field) (values : List Value)
  | external (batchIndex columnIndex : Nat) (columnName : Text) (values : List Value)
      (batch : Batch)

def FilterSet.values : FilterSet → List Value
  | .literal _ _ values => values
  | .external _ _ _ values _ => values

inductive FilterExpression where
  | columnRef (columnIndex : Nat) (columnName : Text) (dataType : Option DataType)
  | fieldRef (expression : FilterExpression) (fieldIndex : Nat) (fieldName : Text)
      (dataType : DataType)
  | literal (valueRef : Nat) (field : Field) (value : Value)
  | comparison (op : ComparisonOp) (left right : FilterExpression)
  | and (children : List FilterExpression)
  | or (children : List FilterExpression)
  | not (expression : FilterExpression)
  | isNull (expression : FilterExpression) (negated : Bool)
  | inSet (expression : FilterExpression) (set : FilterSet) (negated : Bool)
  | cast (expression : FilterExpression) (typeRef : Nat) (field : Field)
  | arithmetic (op : ArithmeticOp) (left right : FilterExpression)
  | negate (expression : FilterExpression)
  | call (function : FilterFunction) (arguments : List FilterExpression) (options : Option Json)
  | runtimeFilter (algorithm : FunctionIdentity) (input : FilterExpression) (artifactRef : Nat)
      (field : Field) (artifact : Value) (nullHandling : NullHandling) (supported : Bool)

structure FilterPredicate where
  id : Text
  revision : Nat
  mode : PredicateMode
  source : PredicateSource
  expression : FilterExpression

/-- The capabilities a function advertised, with the bind output schema and the join keys. -/
structure DeserializeFilterOptions where
  outputSchema : Schema
  joinKeyBatches : Option (List Batch) := none
  extensionFunctions : Option (List FunctionIdentity) := none
  runtimeAlgorithms : Option (List FunctionIdentity) := none
  evaluationContexts : Option (List (Text × Option Text)) := none

structure PushdownFilters where
  predicates : List FilterPredicate
  evaluationContext : EvaluationContext
  options : DeserializeFilterOptions
  revisions : OrderedMap Text Nat
  requiredIds : List Text

/-- What the filter code throws. -/
inductive Fault where
  | filterV2Error (message : Text)
  | error (message : Text)
  | syntaxError
  | typeError
  | rangeError
  deriving DecidableEq

def filterFunctionIdentityKey (identity : FunctionIdentity) : Text :=
  identity.nameSpace ++ text "/" ++ identity.name ++ text "@" ++ Number.decimal identity.version

def supportedExtensionFunctions : List Text :=
  [text "duckdb.spatial/intersects_extent@1"]

def supportsExtensionFilterFunction (identity : FunctionIdentity) : Bool :=
  supportedExtensionFunctions.contains (filterFunctionIdentityKey identity)

/-- The wire names of an enumeration, read back. -/
def readName {α : Type} (names : List (Text × α)) (name : Text) : Option α :=
  lookupEntry names name

def comparisonOps : List (Text × ComparisonOp) :=
  [(text "eq", .eq), (text "ne", .ne), (text "lt", .lt), (text "le", .le), (text "gt", .gt),
    (text "ge", .ge), (text "distinct_from", .distinctFrom),
    (text "not_distinct_from", .notDistinctFrom)]

def arithmeticOps : List (Text × ArithmeticOp) :=
  [(text "add", .add), (text "subtract", .subtract), (text "multiply", .multiply),
    (text "divide", .divide), (text "modulo", .modulo)]

def modes : List (Text × PredicateMode) :=
  [(text "required", .required), (text "advisory", .advisory)]

def sources : List (Text × PredicateSource) :=
  [(text "query", .query), (text "join", .join), (text "top_n", .topN),
    (text "split_refinement", .splitRefinement), (text "other", .other)]

def standardFunctions : List (Text × StandardFilterFunction) :=
  [(text "starts_with", .startsWith), (text "ends_with", .endsWith),
    (text "contains", .contains), (text "list_contains", .listContains)]

def knownRuntimeAlgorithms : List Text :=
  [text "duckdb.runtime_filter/bloom@1", text "duckdb.runtime_filter/prefix_range@1"]

def knownArrowExtensions : List Text :=
  [text "arrow.bool8", text "arrow.json", text "arrow.uuid", text "geoarrow.linestring",
    text "geoarrow.multilinestring", text "geoarrow.multipoint", text "geoarrow.multipolygon",
    text "geoarrow.point", text "geoarrow.polygon", text "geoarrow.wkb"]

end VgiWorker.FilterPushdown
