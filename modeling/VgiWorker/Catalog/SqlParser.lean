import VgiWorker.Catalog.SqlTokens

/-!
# The parser of scalar SQL

The recursive descent over the tokens that are left, level by level. Each level
is written over the parser of a nested expression.
-/

set_option autoImplicit false

namespace VgiWorker.Catalog.Sql

open VgiWorker.Js

inductive LiteralType where
  | null
  | boolean
  | integer
  | bigint
  | hugeint
  | decimal
  | double
  | varchar
  deriving DecidableEq

/-- The numeral a constant was read from, and whether a minus was folded into it. -/
structure NumeralSource where
  text : Text
  negative : Bool
  deriving DecidableEq

inductive ConjunctionOp where
  | and
  | or
  deriving DecidableEq

inductive OperatorOp where
  | not
  | isNull
  | isNotNull
  | coalesce
  deriving DecidableEq

/-- `CAST_TYPES[name]`: a type of the table, a member that the table object inherits, or nothing. -/
inductive CastType where
  | listed (name : Text)
  | inherited
  deriving DecidableEq

structure CastTarget where
  type : Option CastType
  qualified : Bool
  deriving DecidableEq

inductive ScalarNode where
  | constant (type : LiteralType) (source : Option NumeralSource)
  | column (names : List Text)
  | cast (target : CastTarget) (child : ScalarNode)
  | comparison (op : Text) (left right : ScalarNode)
  | conjunction (op : ConjunctionOp) (children : List ScalarNode)
  | operator (op : OperatorOp) (children : List ScalarNode)
  | function (name : Text) (qualified : Bool) (children : List ScalarNode)

/-- Words the DuckDB grammar never reads as a bare column reference here. -/
def reserved : List Text :=
  ["all", "and", "any", "array", "as", "asc", "between", "both", "case", "cast", "check", "collate",
    "column", "constraint", "create", "default", "desc", "distinct", "do", "else", "end", "except",
    "false", "fetch", "for", "foreign", "from", "glob", "grant", "group", "having", "ilike", "in",
    "intersect", "interval", "into", "is", "isnull", "like", "limit", "not", "notnull", "null",
    "offset", "on", "or", "order", "primary", "references", "returning", "select", "similar",
    "some", "table", "then", "to", "true", "try_cast", "union", "unique", "using", "when", "where",
    "window", "with"].map text

/-- The types that a cast may name, each under all its names. -/
def castTypes : List (String × List String) :=
  [("BOOLEAN", ["boolean", "bool", "logical"]), ("TINYINT", ["tinyint", "int1"]),
    ("SMALLINT", ["smallint", "int2", "short"]),
    ("INTEGER", ["integer", "int", "int4", "signed"]), ("BIGINT", ["bigint", "int8", "long"]),
    ("FLOAT", ["float", "real", "float4"]), ("DOUBLE", ["double", "float8"]),
    ("DECIMAL", ["decimal", "numeric"]),
    ("VARCHAR", ["varchar", "text", "string", "char", "bpchar", "nvarchar", "character"])]

/-- `CAST_TYPES[name] ?? null`. -/
def castType (name : Text) : Option CastType :=
  match castTypes.find? fun entry => (entry.2.map text).contains name with
  | some (type, _) => some (.listed (text type))
  | none =>
      if name = text "constructor" ∨ name = text "__proto__" then some .inherited else none

/-- The constant of a numeral: integers by their size, decimals while they fit. -/
def literalNumber (numeral : Text) (negative : Bool) : ScalarNode :=
  let source := some ⟨numeral, negative⟩
  if numeral ≠ [] ∧ numeral.all Number.isDigit then
    let value : Int := (Number.natOfDigits numeral : Int) * if negative then -1 else 1
    let type : LiteralType :=
      if -2 ^ 31 ≤ value ∧ value < 2 ^ 31 then .integer
      else if -2 ^ 63 ≤ value ∧ value < 2 ^ 63 then .bigint
      else .hugeint
    .constant type source
  else
    let plain := ¬(numeral.any fun unit => unit == 101 || unit == 69)
    let digits := (numeral.erase 46).dropWhile fun unit => unit == 48
    if plain ∧ digits.length ≤ 38 then .constant .decimal source else .constant .double source

/-! ## Looking at the tokens -/

abbrev Parser (Value : Type) : Type := TokenParser Token Fault Value

/-- The token at a distance; behind the last one it is the last one again. -/
def peek (tokens : List Token) (offset : Nat) : Token :=
  tokens.getD offset .endOfInput

def next : Parser Token
  | [] => .error .pastEnd
  | token :: rest => .ok (token, rest)

def Token.isOp (token : Token) (v : String) : Bool :=
  token = .op (text v)

def isOp (tokens : List Token) (v : String) : Bool :=
  (peek tokens 0).isOp v

def expectOp (v : String) (tokens : List Token) : Except Fault (List Token) :=
  if isOp tokens v then .ok tokens.tail
  else fail (text "expected '" ++ text v ++ text "'")

section

variable (toLowerCase : Text → Text)

/-- An unquoted identifier that is this word in lower case. -/
def Token.isWord (token : Token) (word : String) : Bool :=
  match token with
  | .ident v false => toLowerCase v = text word
  | _ => false

def isWord (tokens : List Token) (word : String) : Bool :=
  (peek tokens 0).isWord toLowerCase word

/-- Further components behind the first one of a name. -/
def components (refusal : Text) : List Token → Except Fault (List Text × List Token)
  | token :: rest =>
      if token.isOp "." then
        match rest with
        | .ident v _ :: rest => do
            let (names, rest) ← components refusal rest
            .ok (v :: names, rest)
        | [] => .error .pastEnd
        | _ => fail refusal
      else .ok ([], token :: rest)
  | [] => .ok ([], [])

/-! ## Cast targets -/

def typeParameters : List Token → Except Fault (List Text × List Token)
  | .num v :: token :: rest =>
      if token.isOp "," then do
        let (params, rest) ← typeParameters rest
        .ok (v :: params, rest)
      else .ok ([v], token :: rest)
  | [.num v] => .ok ([v], [])
  | [] => .error .pastEnd
  | _ => fail (text "unsupported type parameter")

/-- A second word of the type's name, and the name it then has. -/
def secondWord (first : Text) (tokens : List Token) : Text × List Token :=
  if first = text "double" ∧ isWord toLowerCase tokens "precision" then
    (text "double", tokens.tail)
  else if first = text "character" ∧ isWord toLowerCase tokens "varying" then
    (text "varchar", tokens.tail)
  else (first, tokens)

def parameterList (tokens : List Token) : Except Fault (List Text × List Token) :=
  if isOp tokens "(" then do
    let (params, rest) ← typeParameters tokens.tail
    let rest ← expectOp ")" rest
    .ok (params, rest)
  else .ok ([], tokens)

/-- A FLOAT of more than 24 bits is a DOUBLE. -/
def castTarget (name : Text) (params : List Text) (qualified : Bool) : CastTarget :=
  let type := castType name
  let wide : Bool :=
    match params with
    | [param] => (Number.ofNat 24).less (Number.ofText param)
    | _ => false
  if type = some (.listed (text "FLOAT")) ∧ wide then ⟨some (.listed (text "DOUBLE")), qualified⟩
  else ⟨type, qualified⟩

def typeName : Parser CastTarget := fun tokens => do
  let (t, rest) ← next tokens
  match t with
  | .ident v _ => do
      let (qualifiers, rest) ← components (text "expected a type name") rest
      let (name, rest) := secondWord toLowerCase (toLowerCase v) rest
      let (params, rest) ← parameterList rest
      if isOp rest "[" then fail (text "array types are unsupported")
      else .ok (castTarget name params (qualifiers ≠ []), rest)
  | _ => fail (text "expected a type name")

/-! ## Primary expressions -/

variable (toUpperCase : Text → Text) (expr : Parser ScalarNode)

/-- An identifier and a colon or an equals sign. -/
def isNamedArgument (tokens : List Token) : Bool :=
  ((peek tokens 1).isOp ":" || (peek tokens 1).isOp "=") &&
    match peek tokens 0 with
    | .ident _ _ => true
    | _ => false

def argumentsFrom : Nat → Parser (List ScalarNode)
  | 0, _ => .error .endless
  | fuel + 1, tokens =>
      if isOp tokens "*" then fail (text "star arguments are unsupported")
      else if isNamedArgument tokens then fail (text "named scalar arguments are unsupported")
      else do
        let (child, rest) ← expr tokens
        if isOp rest "," then do
          let (children, rest) ← argumentsFrom fuel rest.tail
          .ok (child :: children, rest)
        else .ok ([child], rest)

def callArguments (tokens : List Token) : Except Fault (List ScalarNode × List Token) :=
  if isWord toLowerCase tokens "distinct" then
    fail (text "DISTINCT function arguments are unsupported")
  else if isOp tokens ")" then .ok ([], tokens)
  else argumentsFrom expr (tokens.length + 1) tokens

/-- The node of a call: COALESCE is an operator, everything else a function. -/
def callNode (first : Text) (quoted : Bool) (others : List Text) (children : List ScalarNode) :
    ScalarNode :=
  if others = [] ∧ quoted = false ∧ toLowerCase first = text "coalesce" then
    .operator .coalesce children
  else .function ((first :: others).getLastD []) (others ≠ []) children

/-- A column reference or a function call. -/
def named (first : Text) (quoted : Bool) : Parser ScalarNode := fun tokens => do
  let (others, rest) ← components (text "unsupported qualified name") tokens
  if isOp rest "(" then do
    let (children, rest) ← callArguments toLowerCase expr rest.tail
    if isWord toLowerCase rest "order" then
      fail (text "ordered function arguments are unsupported")
    else do
      let rest ← expectOp ")" rest
      if isWord toLowerCase rest "filter" || isWord toLowerCase rest "over" then
        fail (text "aggregate and window functions are unsupported")
      else .ok (callNode toLowerCase first quoted others children, rest)
  else
    match peek rest 0 with
    | .str _ => fail (text "typed literals are unsupported")
    | _ => .ok (.column (first :: others), rest)

def castCall : Parser ScalarNode := fun tokens => do
  let (child, rest) ← expr tokens
  if isWord toLowerCase rest "as" then do
    let (target, rest) ← typeName toLowerCase rest.tail
    let rest ← expectOp ")" rest
    .ok (.cast target child, rest)
  else fail (text "expected AS in CAST")

def parenthesised : Parser ScalarNode := fun tokens => do
  let (inner, rest) ← expr tokens
  if isOp rest "," then fail (text "row constructors are unsupported")
  else do
    let rest ← expectOp ")" rest
    .ok (inner, rest)

def unquotedWord (v : Text) : Parser ScalarNode := fun tokens =>
  let word := toLowerCase v
  if word = text "null" then .ok (.constant .null none, tokens)
  else if word = text "true" ∨ word = text "false" then .ok (.constant .boolean none, tokens)
  else if word = text "cast" ∧ isOp tokens "(" then castCall toLowerCase expr tokens.tail
  else if word = text "case" then fail (text "CASE is outside the supported scalar grammar")
  else if word ∈ reserved then fail (text "unexpected keyword " ++ toUpperCase v)
  else named toLowerCase expr v false tokens

def primary : Parser ScalarNode := fun tokens => do
  let (t, rest) ← next tokens
  match t with
  | .num v => .ok (literalNumber v false, rest)
  | .str _ =>
      match peek rest 0 with
      | .str _ => fail (text "adjacent string literals are unsupported")
      | _ => .ok (.constant .varchar none, rest)
  | .op v =>
      if v = text "(" then parenthesised expr rest
      else fail (text "unexpected '" ++ v ++ text "'")
  | .endOfInput => fail (text "expected an expression")
  | .ident v true => named toLowerCase expr v true rest
  | .ident v false => unquotedWord toLowerCase toUpperCase expr v rest

/-! ## Operators -/

def castSuffix : SuffixParser Token Fault ScalarNode := fun tokens =>
  if isOp tokens "::" then do
    let (target, rest) ← typeName toLowerCase tokens.tail
    .ok (some (.cast target, rest))
  else if isOp tokens "[" then fail (text "subscripts are unsupported")
  else .ok none

def postfix_ : Parser ScalarNode :=
  suffixed .endless (primary toLowerCase toUpperCase expr) (castSuffix toLowerCase)

/-- A sign; a minus on a numeral is folded into it. -/
def applySign (sign : Text) (operand : ScalarNode) : ScalarNode :=
  match operand with
  | .constant _ (some source) =>
      if sign = text "-" then literalNumber source.text !source.negative
      else .function sign false [operand]
  | _ => .function sign false [operand]

def signOperator : Token → Option (ScalarNode → ScalarNode)
  | .op v => if v = text "-" ∨ v = text "+" then some (applySign v) else none
  | _ => none

def unary : Parser ScalarNode :=
  prefixed signOperator (postfix_ toLowerCase toUpperCase expr)

/-- The left-associative operators of one level, as calls of their name. -/
def functionOperator (names : List String) : Token → Option (ScalarNode → ScalarNode → ScalarNode)
  | .op v =>
      if v ∈ names.map text then some fun left right => .function v false [left, right] else none
  | _ => none

def leftAssociative (operator : Token → Option (ScalarNode → ScalarNode → ScalarNode))
    (operand : Parser ScalarNode) : Parser ScalarNode :=
  suffixed .endless operand (infixSuffix operator operand)

def power : Parser ScalarNode :=
  leftAssociative (functionOperator ["^"]) (unary toLowerCase toUpperCase expr)

def multiplicative : Parser ScalarNode :=
  leftAssociative (functionOperator ["*", "/", "%"]) (power toLowerCase toUpperCase expr)

def additive : Parser ScalarNode :=
  leftAssociative (functionOperator ["+", "-"]) (multiplicative toLowerCase toUpperCase expr)

def otherOp : Parser ScalarNode :=
  leftAssociative (functionOperator ["||", "//", "**"]) (additive toLowerCase toUpperCase expr)

def comparisonOps : List String :=
  ["=", "==", "<>", "!=", "<", ">", "<=", ">="]

/-- The comparison of a token, under the name that it has in the tree. -/
def comparisonOperator : Token → Option (ScalarNode → ScalarNode → ScalarNode)
  | .op v =>
      if v ∈ comparisonOps.map text then
        some fun left right =>
          .comparison (if v = text "==" then text "=" else if v = text "!=" then text "<>" else v)
            left right
      else none
  | _ => none

/-- Words behind an operand that name what the grammar leaves out, each with its refusal. -/
def outsideWords : List (String × String) :=
  [("between", "BETWEEN"), ("in", "IN"), ("like", "LIKE"), ("ilike", "ILIKE"), ("glob", "GLOB"),
    ("similar", "SIMILAR"), ("not", "NOT"), ("collate", "COLLATE")]

def comparison : Parser ScalarNode := fun tokens => do
  let (left, rest) ← otherOp toLowerCase toUpperCase expr tokens
  match comparisonOperator (peek rest 0) with
  | some combine => do
      let (right, rest) ← otherOp toLowerCase toUpperCase expr rest.tail
      if (comparisonOperator (peek rest 0)).isSome then
        fail (text "chained comparisons are unsupported")
      else .ok (combine left right, rest)
  | none =>
      match outsideWords.find? fun entry => isWord toLowerCase rest entry.1 with
      | some (_, name) => fail (text name ++ text " is outside the supported scalar grammar")
      | none => .ok (left, rest)

def isSuffix : SuffixParser Token Fault ScalarNode := fun tokens =>
  if isWord toLowerCase tokens "isnull" then
    .ok (some (fun left => .operator .isNull [left], tokens.tail))
  else if isWord toLowerCase tokens "notnull" then
    .ok (some (fun left => .operator .isNotNull [left], tokens.tail))
  else if isWord toLowerCase tokens "is" then
    let negated := isWord toLowerCase tokens.tail "not"
    let rest := if negated then tokens.tail.tail else tokens.tail
    if isWord toLowerCase rest "null" then
      .ok (some (fun left => .operator (if negated then .isNotNull else .isNull) [left], rest.tail))
    else fail (text "only IS [NOT] NULL is supported")
  else .ok none

def is : Parser ScalarNode :=
  suffixed .endless (comparison toLowerCase toUpperCase expr) (isSuffix toLowerCase)

def wordOperator {Made : Type} (word : String) (make : Made) (token : Token) : Option Made :=
  if token.isWord toLowerCase word then some make else none

def not : Parser ScalarNode :=
  prefixed (wordOperator toLowerCase "not" fun child => .operator .not [child])
    (is toLowerCase toUpperCase expr)

def and : Parser ScalarNode :=
  leftAssociative
    (wordOperator toLowerCase "and" fun left right => .conjunction .and [left, right])
    (not toLowerCase toUpperCase expr)

def or : Parser ScalarNode :=
  leftAssociative (wordOperator toLowerCase "or" fun left right => .conjunction .or [left, right])
    (and toLowerCase toUpperCase expr)

end

section

variable (toLowerCase toUpperCase : Text → Text)

/-- An expression with fewer than `depth` levels of nested ones. -/
def expr : Nat → Parser ScalarNode
  | 0 => fun _ => .error .endless
  | depth + 1 => or toLowerCase toUpperCase (expr depth)

def parseAll (tokens : List Token) : Except Fault ScalarNode := do
  let (node, rest) ← expr toLowerCase toUpperCase tokens.length tokens
  match peek rest 0 with
  | .endOfInput => .ok node
  | _ => fail (text "unexpected text after the expression")

/-- Neither empty nor with a NUL, and at most one MiB. -/
def Sized (sql : Text) : Prop :=
  sql ≠ [] ∧ 0 ∉ sql ∧ utf8Length sql ≤ 1024 * 1024

instance (sql : Text) : Decidable (Sized sql) :=
  inferInstanceAs (Decidable (_ ∧ _))

def parseScalarSql (sql : Text) : Except Fault ScalarNode :=
  if Sized sql then do
    let tokens ← tokenize sql
    parseAll toLowerCase toUpperCase tokens
  else fail (text "invalid SQL size or text")

end

end VgiWorker.Catalog.Sql
