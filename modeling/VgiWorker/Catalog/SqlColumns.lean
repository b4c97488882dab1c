import VgiWorker.Catalog.SqlCompleteness

/-!
# Column expressions

The check of a column expression's SQL against the bounded grammar, and the
columns that it gives.
-/

set_option autoImplicit false

namespace VgiWorker.Catalog.Sql

open VgiWorker.Js Grammar

def LiteralType.name : LiteralType → String
  | .null => "NULL"
  | .boolean => "BOOLEAN"
  | .integer => "INTEGER"
  | .bigint => "BIGINT"
  | .hugeint => "HUGEINT"
  | .decimal => "DECIMAL"
  | .double => "DOUBLE"
  | .varchar => "VARCHAR"

def primitiveTypes : List String :=
  ["NULL", "BOOLEAN", "TINYINT", "SMALLINT", "INTEGER", "BIGINT", "FLOAT", "DOUBLE", "DECIMAL",
    "VARCHAR"]

def generatedPrimitiveTypes : List String :=
  ["NULL", "BOOLEAN", "TINYINT", "SMALLINT", "INTEGER", "BIGINT", "VARCHAR"]

def allowedFunctions : List String :=
  ["+", "-", "*", "%", "abs", "lower", "upper"]

structure ExpressionOptions where
  usingColumns : Bool
  generated : Bool

namespace ExpressionOptions

def primitive (options : ExpressionOptions) : List Text :=
  (if options.generated then generatedPrimitiveTypes else primitiveTypes).map text

def allowsFunction (options : ExpressionOptions) (toLowerCase : Text → Text) (name : Text)
    (qualified : Bool) : Bool :=
  !qualified && ((allowedFunctions.map text).contains (toLowerCase name) ||
    (options.usingColumns && !options.generated && name == text "/") ||
    (options.generated && name == text "||"))

end ExpressionOptions

/-- The nodes seen so far and the columns found. -/
structure Visited where
  nodes : Nat
  columns : List Text

section

variable (toLowerCase : Text → Text) (options : ExpressionOptions)

/-- One more node, unless it is too deep or one too many. -/
def countNode (depth : Nat) (seen : Visited) : Except Fault Visited :=
  if depth > 64 ∨ seen.nodes + 1 > 4096 then fail (text "scalar expression is too complex")
  else .ok { seen with nodes := seen.nodes + 1 }

def checkCast (target : CastTarget) : Except Fault Unit :=
  if target.qualified then fail (text "qualified scalar cast types are unsupported")
  else
    match target.type with
    | some (.listed name) =>
        if options.primitive.contains name then .ok () else fail (text "unsupported scalar cast")
    | _ => fail (text "unsupported scalar cast")

mutual

def visit (depth : Nat) (seen : Visited) : ScalarNode → Except Fault Visited
  | .constant type _ => do
      let seen ← countNode depth seen
      if options.primitive.contains (text type.name) then .ok seen
      else fail (text "unsupported scalar literal type " ++ text type.name)
  | .column names => do
      let seen ← countNode depth seen
      match options.usingColumns, names with
      | true, [name] => .ok { seen with columns := seen.columns ++ [name] }
      | _, _ => fail (text "column references are unsupported in this scope")
  | .cast target child => do
      let seen ← countNode depth seen
      checkCast options target
      visit (depth + 1) seen child
  | .comparison _ left right => do
      let seen ← countNode depth seen
      let seen ← visit (depth + 1) seen left
      visit (depth + 1) seen right
  | .conjunction _ children => do
      let seen ← countNode depth seen
      visitAll (depth + 1) seen children
  | .operator _ children => do
      let seen ← countNode depth seen
      visitAll (depth + 1) seen children
  | .function name qualified children => do
      let seen ← countNode depth seen
      if options.allowsFunction toLowerCase name qualified then
        visitAll (depth + 1) seen children
      else fail (text "unsupported scalar function '" ++ name ++ text "'")

def visitAll (depth : Nat) (seen : Visited) : List ScalarNode → Except Fault Visited
  | [] => .ok seen
  | child :: rest => do
      let seen ← visit depth seen child
      visitAll depth seen rest

end

def validateColumnExpressionSql (toUpperCase : Text → Text) (sql : Text) :
    Except Fault (List Text) := do
  let node ← parseScalarSql toLowerCase toUpperCase sql
  let visited ← visit toLowerCase options 0 ⟨0, []⟩ node
  .ok visited.columns

/-- Exactly one comparison of numeric constants and columns; `resolveColumn` checks a column. -/
def checkOperand (resolveColumn : Text → Except Fault Unit) : ScalarNode → Except Fault Unit
  | .constant .null _ | .constant .boolean _ | .constant .varchar _ =>
      fail (text "CHECK requires numeric operands")
  | .constant _ _ => .ok ()
  | .column [name] => resolveColumn name
  | .column _ => fail (text "CHECK requires unqualified column references")
  | _ => fail (text "native CHECK read supports only numeric column/constant comparisons")

def validateNumericCheckSql (toUpperCase : Text → Text) (sql : Text)
    (resolveColumn : Text → Except Fault Unit) : Except Fault Unit := do
  match ← parseScalarSql toLowerCase toUpperCase sql with
  | .comparison _ left right => do
      checkOperand resolveColumn left
      checkOperand resolveColumn right
  | _ => fail (text "native CHECK read supports only Boolean numeric comparisons")

end

/-! ## References -/

mutual

/-- The column references of an expression, from left to right. -/
def ScalarNode.references : ScalarNode → List (List Text)
  | .constant _ _ => []
  | .column names => [names]
  | .cast _ child => child.references
  | .comparison _ left right => left.references ++ right.references
  | .conjunction _ children => referencesOf children
  | .operator _ children => referencesOf children
  | .function _ _ children => referencesOf children

def referencesOf : List ScalarNode → List (List Text)
  | [] => []
  | child :: rest => child.references ++ referencesOf rest

end

section

variable (toLowerCase : Text → Text) (options : ExpressionOptions)

private theorem countNode_columns (depth : Nat) (seen counted : Visited)
    (success : countNode depth seen = .ok counted) : counted.columns = seen.columns := by
  unfold countNode at success
  split at success
  · cases success
  · cases success
    rfl

mutual

/-- A visit that succeeds adds the references of the node, all of them unqualified. -/
private theorem visit_columns (depth : Nat) (seen result : Visited) (node : ScalarNode)
    (success : visit toLowerCase options depth seen node = .ok result) :
    result.columns.map (fun name => [name]) =
      seen.columns.map (fun name => [name]) ++ node.references := by
  cases node with
  | constant type source =>
      unfold visit at success
      obtain ⟨counted, counting, success⟩ := except_bind_ok _ _ _ success
      split at success
      · cases success
        simp [countNode_columns depth seen _ counting, ScalarNode.references]
      · cases success
  | column names =>
      unfold visit at success
      obtain ⟨counted, counting, success⟩ := except_bind_ok _ _ _ success
      split at success
      · cases success
        simp [countNode_columns depth seen _ counting, ScalarNode.references]
      · cases success
  | cast target child =>
      unfold visit at success
      obtain ⟨counted, counting, success⟩ := except_bind_ok _ _ _ success
      obtain ⟨_, _, success⟩ := except_bind_ok _ _ _ success
      rw [visit_columns (depth + 1) counted result child success,
        countNode_columns depth seen counted counting, ScalarNode.references]
  | comparison op left right =>
      unfold visit at success
      obtain ⟨counted, counting, success⟩ := except_bind_ok _ _ _ success
      obtain ⟨between, leftVisit, success⟩ := except_bind_ok _ _ _ success
      rw [visit_columns (depth + 1) between result right success,
        visit_columns (depth + 1) counted between left leftVisit,
        countNode_columns depth seen counted counting, ScalarNode.references, List.append_assoc]
  | conjunction op children =>
      unfold visit at success
      obtain ⟨counted, counting, success⟩ := except_bind_ok _ _ _ success
      rw [visitAll_columns (depth + 1) counted result children success,
        countNode_columns depth seen counted counting, ScalarNode.references]
  | operator op children =>
      unfold visit at success
      obtain ⟨counted, counting, success⟩ := except_bind_ok _ _ _ success
      rw [visitAll_columns (depth + 1) counted result children success,
        countNode_columns depth seen counted counting, ScalarNode.references]
  | function name qualified children =>
      unfold visit at success
      obtain ⟨counted, counting, success⟩ := except_bind_ok _ _ _ success
      split at success
      · rw [visitAll_columns (depth + 1) counted result children success,
          countNode_columns depth seen counted counting, ScalarNode.references]
      · cases success

private theorem visitAll_columns (depth : Nat) (seen result : Visited)
    (children : List ScalarNode)
    (success : visitAll toLowerCase options depth seen children = .ok result) :
    result.columns.map (fun name => [name]) =
      seen.columns.map (fun name => [name]) ++ referencesOf children := by
  cases children with
  | nil =>
      unfold visitAll at success
      cases success
      simp [referencesOf]
  | cons child rest =>
      unfold visitAll at success
      obtain ⟨between, childVisit, success⟩ := except_bind_ok _ _ _ success
      rw [visitAll_columns depth between result rest success,
        visit_columns depth seen between child childVisit, referencesOf, List.append_assoc]

end

/-! ## Acceptance -/

variable (toUpperCase : Text → Text)

theorem parseScalarSql_ok (sql : Text) (node : ScalarNode) :
    parseScalarSql toLowerCase toUpperCase sql = .ok node ↔
      Sized sql ∧ ∃ body, tokenize sql = .ok (body ++ [.endOfInput]) ∧
        Expression toLowerCase body node := by
  constructor
  · intro success
    unfold parseScalarSql at success
    split at success
    · rename_i sized
      obtain ⟨tokens, tokenized, parsed⟩ := except_bind_ok _ _ _ success
      have ends := (tokenize_spec sql).of_ok tokenized
      obtain ⟨body, rfl, read⟩ := (parseAll_sound toLowerCase toUpperCase tokens ends).of_ok parsed
      exact ⟨sized, body, tokenized, read⟩
    · cases success
  · rintro ⟨sized, body, tokenized, read⟩
    have parsed := parseAll_complete toLowerCase toUpperCase body node read
    simp only [parseScalarSql, sized, if_true, tokenized, except_ok_bind, parsed]

theorem parseScalarSql_refuses (sql : Text) (fault : Fault)
    (failed : parseScalarSql toLowerCase toUpperCase sql = .error fault) :
    fault.IsGrammarError := by
  have outcome : VgiWorker.Outcome Fault.IsGrammarError (fun _ => True)
      (parseScalarSql toLowerCase toUpperCase sql) := by
    unfold parseScalarSql
    split
    · refine (tokenize_spec sql).bind ?_
      intro tokens ends
      exact (parseAll_sound toLowerCase toUpperCase tokens ends).mono fun _ _ => trivial
    · exact ⟨_, rfl⟩
  exact outcome.of_error failed

/-- A text is accepted exactly when it has an admissible size and its tokens are derivable, the tree
is that of the derivation, every refusal is a grammar error, and the columns of an accepted column
expression are its references. -/
theorem scalar_sql_validation (sql : Text) :
    (∀ node, parseScalarSql toLowerCase toUpperCase sql = .ok node ↔
      Sized sql ∧ ∃ body, tokenize sql = .ok (body ++ [.endOfInput]) ∧
        Expression toLowerCase body node) ∧
      (∀ fault, parseScalarSql toLowerCase toUpperCase sql = .error fault →
        fault ≠ .pastEnd ∧ fault ≠ .endless) ∧
      ∀ columns, validateColumnExpressionSql toLowerCase options toUpperCase sql = .ok columns →
        ∃ body node, tokenize sql = .ok (body ++ [.endOfInput]) ∧
          Expression toLowerCase body node ∧ columns.map (fun name => [name]) = node.references := by
  refine ⟨parseScalarSql_ok toLowerCase toUpperCase sql, ?_, ?_⟩
  · intro fault failed
    obtain ⟨message, rfl⟩ := parseScalarSql_refuses toLowerCase toUpperCase sql fault failed
    exact ⟨nofun, nofun⟩
  · intro columns accepted
    obtain ⟨node, parsed, accepted⟩ := except_bind_ok _ _ _ accepted
    obtain ⟨visited, visiting, accepted⟩ := except_bind_ok _ _ _ accepted
    cases accepted
    obtain ⟨_, body, tokenized, read⟩ := (parseScalarSql_ok toLowerCase toUpperCase sql node).mp parsed
    exact ⟨body, node, tokenized, read,
      visit_columns toLowerCase options 0 ⟨0, []⟩ visited node visiting⟩

end

/-- A string literal with a NUL is one token that derives a constant, and the text is refused. -/
theorem nul_in_literal_refused :
    (∃ body node, tokenize [39, 0, 39] = .ok (body ++ [.endOfInput]) ∧ Expression id body node) ∧
      ¬∃ node, parseScalarSql id id [39, 0, 39] = .ok node := by
  constructor
  · refine ⟨[.str [0]], .constant .varchar none, by decide +kernel, 1, ?_⟩
    exact .first (.first (.operand (.first (.operand (.first (.first (.first (.first
      (.operand (.first .string))))))))))
  · rintro ⟨node, parsed⟩
    have refused : ¬Sized [39, 0, 39] := fun sized => sized.2.1 (by decide)
    simp [parseScalarSql, refused, fail] at parsed

end VgiWorker.Catalog.Sql
