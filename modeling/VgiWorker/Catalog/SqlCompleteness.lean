import VgiWorker.Catalog.SqlSoundness

/-!
# What the parser accepts

Every string of a level of the grammar is read by the parser of that level, where
a token stands behind it that no longer string of the level could go on with.
-/

set_option autoImplicit false

namespace VgiWorker.Catalog.Sql

open VgiWorker.Js Grammar

/-! ## How tightly a token binds -/

/-- The level at which an operator stands behind an operand, from the loosest on; 10 for one that
never does. -/
def opLevel (v : Text) : Nat :=
  let levels : List (List String × Nat) :=
    [([")", ","], 0), (comparisonOps, 4), (["||", "//", "**"], 5), (["+", "-"], 6),
      (["*", "/", "%"], 7), (["^"], 8), (["::"], 9)]
  match levels.find? fun entry => (entry.1.map text).contains v with
  | some (_, level) => level
  | none => 10

def wordLevel (word : Text) : Nat :=
  let levels : List (List String × Nat) :=
    [(["as"], 0), (["or"], 1), (["and"], 2), (["is", "isnull", "notnull"], 3)]
  match levels.find? fun entry => (entry.1.map text).contains word with
  | some (_, level) => level
  | none => 10

section

variable (toLowerCase : Text → Text)

def level : Token → Nat
  | .endOfInput => 0
  | .op v => opLevel v
  | .ident v false => wordLevel (toLowerCase v)
  | _ => 10

def Follows (loosest : Nat) (token : Token) : Prop :=
  level toLowerCase token ≤ loosest

theorem Follows.mono {loosest tighter : Nat} (less : loosest ≤ tighter) (token : Token)
    (follows : Follows toLowerCase loosest token) : Follows toLowerCase tighter token :=
  Nat.le_trans follows less

theorem follows_op (loosest : Nat) (v : String) (known : opLevel (text v) ≤ loosest) :
    Follows toLowerCase loosest (op v) :=
  known

theorem follows_not_op (loosest : Nat) (v : String) (tighter : loosest < opLevel (text v))
    (token : Token) (follows : Follows toLowerCase loosest token) : token.isOp v = false := by
  cases known : token.isOp v with
  | false => rfl
  | true =>
      obtain rfl := (token.isOp_iff v).mp known
      exact absurd follows (not_le.mpr tighter)

theorem isWord_level (token : Token) (word : String)
    (known : token.isWord toLowerCase word = true) :
    level toLowerCase token = wordLevel (text word) := by
  cases token with
  | ident v quoted =>
      cases quoted with
      | true => cases known
      | false => exact congrArg wordLevel (of_decide_eq_true known)
  | _ => cases known

theorem follows_not_word (loosest : Nat) (word : String) (tighter : loosest < wordLevel (text word))
    (token : Token) (follows : Follows toLowerCase loosest token) :
    token.isWord toLowerCase word = false := by
  cases known : token.isWord toLowerCase word with
  | false => rfl
  | true =>
      unfold Follows at follows
      rw [isWord_level toLowerCase token word known] at follows
      exact absurd follows (not_le.mpr tighter)

theorem functionOperator_level (names : List String) (tightness : Nat)
    (same : ∀ v ∈ names.map text, opLevel v = tightness) (token : Token)
    (known : functionOperator names token ≠ none) : level toLowerCase token = tightness := by
  cases token with
  | op v =>
      unfold functionOperator at known
      by_cases member : v ∈ names.map text
      · exact same v member
      · simp [member] at known
  | _ => exact absurd rfl known

theorem wordOperator_level {Made : Type} (word : String) (make : Made) (token : Token)
    (known : wordOperator toLowerCase word make token ≠ none) :
    level toLowerCase token = wordLevel (text word) := by
  unfold wordOperator at known
  split at known
  · exact isWord_level toLowerCase token word (by assumption)
  · exact absurd rfl known

end

/-! ## How strings start -/

section

variable (toLowerCase : Text → Text)

/-- The reserved words that a primary expression may start with. -/
def startingWords : List Text :=
  ["null", "true", "false", "cast"].map text

def StartsPrimary : Token → Prop
  | .num _ => True
  | .str _ => True
  | .ident v false => toLowerCase v ∉ reserved ∨ toLowerCase v ∈ startingWords
  | .ident _ true => True
  | .op v => v = text "("
  | .endOfInput => False

def StartsUnary (token : Token) : Prop :=
  StartsPrimary toLowerCase token ∨ signOperator token ≠ none

def StartsExpression (token : Token) : Prop :=
  StartsUnary toLowerCase token ∨ token.isWord toLowerCase "not" = true

private theorem starts_word (token : Token) (word : String)
    (known : token.isWord toLowerCase word = true) (starting : text word ∈ startingWords) :
    StartsPrimary toLowerCase token := by
  cases token with
  | ident v quoted =>
      cases quoted with
      | true => trivial
      | false =>
          have same : toLowerCase v = text word := of_decide_eq_true known
          exact .inr (same ▸ starting)
  | _ => cases known

private theorem primary_heads (Inner : Strings ScalarNode) :
    Heads (StartsPrimary toLowerCase) (Primary toLowerCase Inner) := by
  intro used node read
  cases read with
  | numeral => exact ⟨_, [], rfl, trivial⟩
  | string => exact ⟨_, [], rfl, trivial⟩
  | parenthesised read => exact ⟨_, _, rfl, rfl⟩
  | null word => exact ⟨_, [], rfl, starts_word toLowerCase _ "null" word (by decide)⟩
  | boolean word =>
      refine ⟨_, [], rfl, ?_⟩
      rcases word with word | word
      · exact starts_word toLowerCase _ "true" word (by decide)
      · exact starts_word toLowerCase _ "false" word (by decide)
  | cast word read asWord typed =>
      exact ⟨_, _, rfl, starts_word toLowerCase _ "cast" word (by decide)⟩
  | @column v quoted rest others nameable components =>
      refine ⟨_, _, rfl, ?_⟩
      cases quoted with
      | true => trivial
      | false => exact .inl (nameable rfl)
  | @call v quoted rest used others children nameable components arguments =>
      refine ⟨_, _, rfl, ?_⟩
      cases quoted with
      | true => trivial
      | false => exact .inl (nameable rfl)

private theorem unary_heads (Inner : Strings ScalarNode) :
    Heads (StartsUnary toLowerCase) (Unary toLowerCase Inner) := by
  refine Heads.prefixed ?_ ?_
  · exact ((primary_heads toLowerCase Inner).suffixed).mono fun token starts => .inl starts
  · exact fun token wrap known => .inr (by simp [known])

private theorem otherOp_heads (Inner : Strings ScalarNode) :
    Heads (StartsUnary toLowerCase) (OtherOp toLowerCase Inner) :=
  (((unary_heads toLowerCase Inner).suffixed).suffixed).suffixed.suffixed

private theorem is_heads (Inner : Strings ScalarNode) :
    Heads (StartsUnary toLowerCase) (Is toLowerCase Inner) := by
  refine Heads.suffixed ?_
  intro used node read
  cases read with
  | operand read => exact otherOp_heads toLowerCase Inner _ _ read
  | compared readLeft known readRight =>
      obtain ⟨head, rest, rfl, starts⟩ := otherOp_heads toLowerCase Inner _ _ readLeft
      exact ⟨head, rest ++ _, rfl, starts⟩

private theorem or_heads (Inner : Strings ScalarNode) :
    Heads (StartsExpression toLowerCase) (Or toLowerCase Inner) := by
  refine ((Heads.prefixed ?_ ?_).suffixed).suffixed
  · exact (is_heads toLowerCase Inner).mono fun token starts => .inl starts
  · intro token wrap known
    unfold wordOperator at known
    split at known
    · exact .inr (by assumption)
    · cases known

theorem expression_heads (depth : Nat) :
    Heads (StartsExpression toLowerCase) (ExpressionTo toLowerCase depth) := by
  cases depth with
  | zero => exact fun used node read => read.elim
  | succ depth => exact or_heads toLowerCase _

private theorem primary_not_sign (token : Token) (starts : StartsPrimary toLowerCase token) :
    signOperator token = none := by
  cases token with
  | op v =>
      obtain rfl : v = text "(" := starts
      rfl
  | _ => rfl

/-- No unary expression starts with another reserved word. -/
private theorem starts_not_word (token : Token) (word : String) (known : text word ∈ reserved)
    (other : text word ∉ startingWords) (starts : StartsUnary toLowerCase token) :
    token.isWord toLowerCase word = false := by
  cases isWord : token.isWord toLowerCase word with
  | false => rfl
  | true =>
      cases token with
      | ident v quoted =>
          cases quoted with
          | true => cases isWord
          | false =>
              have same : toLowerCase v = text word := of_decide_eq_true isWord
              rcases starts with (unreserved | starting) | sign
              · exact absurd (same ▸ known) unreserved
              · exact absurd (same ▸ starting) other
              · exact absurd rfl sign
      | _ => cases isWord

private theorem starts_not_op (token : Token) (v : String)
    (other : text v ≠ text "(") (unsigned : signOperator (op v) = none)
    (starts : StartsExpression toLowerCase token) : token.isOp v = false := by
  cases isOp : token.isOp v with
  | false => rfl
  | true =>
      obtain rfl := (token.isOp_iff v).mp isOp
      rcases starts with (opens | sign) | word
      · exact absurd opens other
      · exact absurd unsigned sign
      · cases word

private theorem starts_not_distinct (token : Token) (starts : StartsExpression toLowerCase token) :
    token.isWord toLowerCase "distinct" = false := by
  rcases starts with starts | isNot
  · exact starts_not_word toLowerCase token "distinct" (by decide) (by decide) starts
  · cases isDistinct : token.isWord toLowerCase "distinct" with
    | false => rfl
    | true =>
        cases token with
        | ident v quoted =>
            cases quoted with
            | true => cases isNot
            | false =>
                have notWord : toLowerCase v = text "not" := of_decide_eq_true isNot
                have distinctWord : toLowerCase v = text "distinct" := of_decide_eq_true isDistinct
                exact absurd (notWord.symm.trans distinctWord) (by decide)
        | _ => cases isNot

end

/-! ## Names and types -/

private theorem components_complete (refusal : Text) (used : List Token) (names : List Text)
    (next : Token) (rest : List Token) (read : Components used names)
    (noDot : next.isOp "." = false) :
    components refusal (used ++ next :: rest) = .ok (names, next :: rest) := by
  induction read with
  | last =>
      rw [List.nil_append, components.eq_def]
      simp [noDot]
  | more others ih =>
      have dot : (op ".").isOp "." = true := (Token.isOp_iff _ _).mpr rfl
      simp [components, dot, ih]

private theorem typeParameters_complete (used : List Token) (params : List Text) (next : Token)
    (rest : List Token) (read : TypeParameters used params) (noComma : next.isOp "," = false) :
    typeParameters (used ++ next :: rest) = .ok (params, next :: rest) := by
  induction read with
  | last => simp [typeParameters, noComma]
  | more others ih =>
      have comma : (op ",").isOp "," = true := (Token.isOp_iff _ _).mpr rfl
      simp [typeParameters, comma, ih]

private theorem expectOp_complete (v : String) (rest : List Token) :
    expectOp v (op v :: rest) = .ok rest := by
  have found : isOp (op v :: rest) v = true := (isOp_iff _ v).mpr ⟨rest, rfl⟩
  simp [expectOp, found]

private theorem parameterList_complete (used : List Token) (params : List Text) (next : Token)
    (rest : List Token) (read : ParameterList used params) (closed : next.isOp "(" = false) :
    parameterList (used ++ next :: rest) = .ok (params, next :: rest) := by
  cases read with
  | absent => simp [parameterList, isOp, peek, closed]
  | @given used params read =>
      have opens : isOp (op "(" :: used ++ [op ")"] ++ next :: rest) "(" = true :=
        (isOp_iff _ "(").mpr ⟨used ++ [op ")"] ++ next :: rest, by simp⟩
      have noComma : (op ")").isOp "," = false := by decide
      have inside := typeParameters_complete used params (op ")") (next :: rest) read noComma
      unfold parameterList
      simp only [opens, if_true]
      simp [inside, expectOp_complete]

section

variable (toLowerCase : Text → Text)

/-- A token that goes on with no type name. -/
private def EndsTypeName (token : Token) : Prop :=
  token.isOp "." = false ∧ token.isOp "[" = false ∧ token.isOp "(" = false ∧
    token.isWord toLowerCase "precision" = false ∧ token.isWord toLowerCase "varying" = false

private theorem follows_ends_type (token : Token) (follows : Follows toLowerCase 9 token) :
    EndsTypeName toLowerCase token :=
  ⟨follows_not_op toLowerCase 9 "." (by decide) token follows,
    follows_not_op toLowerCase 9 "[" (by decide) token follows,
    follows_not_op toLowerCase 9 "(" (by decide) token follows,
    follows_not_word toLowerCase 9 "precision" (by decide) token follows,
    follows_not_word toLowerCase 9 "varying" (by decide) token follows⟩

private theorem secondWord_complete (first name : Text) (used : List Token) (next : Token)
    (rest : List Token) (read : SecondWord toLowerCase first used name)
    (noPrecision : next.isWord toLowerCase "precision" = false)
    (noVarying : next.isWord toLowerCase "varying" = false) :
    secondWord toLowerCase first (used ++ next :: rest) = (name, next :: rest) := by
  cases read with
  | absent => simp [secondWord, isWord, peek, noPrecision, noVarying]
  | precision double word => simp [secondWord, isWord, peek, double, word]
  | varying character word =>
      have notDouble : text "character" ≠ text "double" := by decide
      simp [secondWord, isWord, peek, character, word, notDouble]

private theorem typeName_complete (used : List Token) (target : CastTarget) (next : Token)
    (rest : List Token) (read : TypeName toLowerCase used target)
    (ends : EndsTypeName toLowerCase next) :
    typeName toLowerCase (used ++ next :: rest) = .ok (target, next :: rest) := by
  obtain ⟨noDot, noBracket, noParen, noPrecision, noVarying⟩ := ends
  cases read with
  | @named v name quoted others params qualifiers second parameters qualified word list =>
      have listRead := parameterList_complete parameters params next rest list noParen
      -- What stands behind the second word is the parenthesis or the next token.
      obtain ⟨behind, after, same, behindDot, behindPrecision, behindVarying⟩ :
          ∃ behind after, parameters ++ next :: rest = behind :: after ∧
            behind.isOp "." = false ∧ behind.isWord toLowerCase "precision" = false ∧
            behind.isWord toLowerCase "varying" = false := by
        cases list with
        | absent => exact ⟨next, rest, rfl, noDot, noPrecision, noVarying⟩
        | given read => exact ⟨op "(", _, rfl, by decide, rfl, rfl⟩
      have wordRead := secondWord_complete toLowerCase (toLowerCase v) name second behind after word
        behindPrecision behindVarying
      obtain ⟨first, later, sameSecond, firstDot⟩ :
          ∃ first later, second ++ behind :: after = first :: later ∧ first.isOp "." = false := by
        have wordDot : ∀ (token : Token) (known : String),
            token.isWord toLowerCase known = true → token.isOp "." = false := by
          intro token known isWord
          cases token with
          | ident v quoted => rfl
          | _ => cases isWord
        cases word with
        | absent => exact ⟨behind, after, rfl, behindDot⟩
        | precision double word => exact ⟨_, _, rfl, wordDot _ _ word⟩
        | varying character word => exact ⟨_, _, rfl, wordDot _ _ word⟩
      have qualifiedRead := components_complete (text "expected a type name") qualifiers others first
        later qualified firstDot
      have whole : Token.ident v quoted :: qualifiers ++ second ++ parameters ++ next :: rest =
          Token.ident v quoted :: (qualifiers ++ first :: later) := by
        simp only [List.append_assoc, List.cons_append, same, sameSecond]
      rw [whole]
      unfold typeName
      simp only [Sql.next, except_ok_bind, qualifiedRead]
      rw [← sameSecond, wordRead, ← same]
      simp [listRead, isOp, peek, noBracket]

/-! ## Primary expressions -/

theorem isNamedArgument_followed (used rest : List Token) (next : Token)
    (nonempty : used ≠ []) (positional : isNamedArgument used = false)
    (noColon : next.isOp ":" = false) (noEquals : next.isOp "=" = false) :
    isNamedArgument (used ++ next :: rest) = false := by
  cases used with
  | nil => exact absurd rfl nonempty
  | cons first others =>
      cases others with
      | nil => simp [isNamedArgument, peek, noColon, noEquals]
      | cons second others => exact positional

variable {expr : Parser ScalarNode} {Inner : Strings ScalarNode} {bound : Nat}
  (inner : CompleteFor expr Inner (Follows toLowerCase 0) bound)
  (heads : Heads (StartsExpression toLowerCase) Inner)

include inner heads

private theorem argumentsFrom_complete (used : List Token) (children : List ScalarNode)
    (rest : List Token) (read : Arguments Inner used children) (short : used.length ≤ bound)
    (fuel : Nat) (enough : used.length < fuel) :
    argumentsFrom expr fuel (used ++ op ")" :: rest) = .ok (children, op ")" :: rest) := by
  induction read generalizing fuel with
  | @last used child positional read =>
      cases fuel with
      | zero => exact absurd enough (Nat.not_lt_zero _)
      | succ fuel =>
          have closes := follows_op toLowerCase 0 ")" (by decide)
          have childRead := inner used child (op ")") rest read short closes
          obtain ⟨head, others, rfl, starts⟩ := heads used child read
          have noStar := starts_not_op toLowerCase head "*" (by decide) (by decide) starts
          have notNamed := isNamedArgument_followed (head :: others) rest (op ")")
            (List.cons_ne_nil _ _) positional (by decide) (by decide)
          have noComma : isOp (op ")" :: rest) "," = false := rfl
          unfold argumentsFrom
          have star : isOp (head :: others ++ op ")" :: rest) "*" = false := noStar
          simp only [star, notNamed, childRead, noComma, Bool.false_eq_true, if_false,
            except_ok_bind]
  | @more used later child children positional read others ih =>
      cases fuel with
      | zero => exact absurd enough (Nat.not_lt_zero _)
      | succ fuel =>
          simp only [List.length_append, List.length_cons] at short enough
          have separates := follows_op toLowerCase 0 "," (by decide)
          have childRead := inner used child (op ",") (later ++ op ")" :: rest) read (by omega)
            separates
          have othersRead := ih (by omega) fuel (by omega)
          obtain ⟨head, tail, rfl, starts⟩ := heads used child read
          have noStar := starts_not_op toLowerCase head "*" (by decide) (by decide) starts
          have notNamed := isNamedArgument_followed (head :: tail) (later ++ op ")" :: rest) (op ",")
            (List.cons_ne_nil _ _) positional (by decide) (by decide)
          have comma : isOp (op "," :: (later ++ op ")" :: rest)) "," = true :=
            (isOp_iff _ ",").mpr ⟨_, rfl⟩
          have star : isOp (head :: tail ++ op "," :: (later ++ op ")" :: rest)) "*" = false := noStar
          have whole : head :: tail ++ op "," :: later ++ op ")" :: rest =
              head :: tail ++ op "," :: (later ++ op ")" :: rest) := List.append_assoc _ _ _
          rw [whole]
          unfold argumentsFrom
          simp only [star, notNamed, childRead, comma, Bool.false_eq_true, if_false, if_true,
            except_ok_bind, List.tail_cons, othersRead]

private theorem callArguments_complete (used : List Token) (children : List ScalarNode)
    (rest : List Token) (read : CallArguments Inner used children) (short : used.length ≤ bound) :
    callArguments toLowerCase expr (used ++ op ")" :: rest) = .ok (children, op ")" :: rest) := by
  cases read with
  | none =>
      have closes : isOp (op ")" :: rest) ")" = true := (isOp_iff _ ")").mpr ⟨_, rfl⟩
      have notDistinct : isWord toLowerCase (op ")" :: rest) "distinct" = false := rfl
      simp only [List.nil_append, callArguments, closes, notDistinct, Bool.false_eq_true, if_false,
        if_true]
  | given read =>
      obtain ⟨head, tail, rfl, starts⟩ : ∃ head tail, used = head :: tail ∧
          StartsExpression toLowerCase head := by
        cases read with
        | last _ read => exact heads _ _ read
        | more _ read _ =>
            obtain ⟨head, tail, rfl, starts⟩ := heads _ _ read
            exact ⟨head, tail ++ _, rfl, starts⟩
      have notDistinct : isWord toLowerCase (head :: tail ++ op ")" :: rest) "distinct" = false :=
        starts_not_distinct toLowerCase head starts
      have notClosed : isOp (head :: tail ++ op ")" :: rest) ")" = false :=
        starts_not_op toLowerCase head ")" (by decide) (by decide) starts
      have longer : (head :: tail).length < (head :: tail ++ op ")" :: rest).length + 1 := by
        simp only [List.length_append, List.length_cons]
        omega
      simp only [callArguments, notDistinct, notClosed, Bool.false_eq_true, if_false]
      exact argumentsFrom_complete toLowerCase inner heads _ children rest read short _ longer

omit inner heads in
private theorem named_column (first : Text) (quoted : Bool) (used : List Token)
    (others : List Text) (components : Components used others) (next : Token) (rest : List Token)
    (follows : Follows toLowerCase 9 next) :
    named toLowerCase expr first quoted (used ++ next :: rest) =
      .ok (.column (first :: others), next :: rest) := by
  have noDot := follows_not_op toLowerCase 9 "." (by decide) next follows
  have noCall : isOp (next :: rest) "(" = false :=
    follows_not_op toLowerCase 9 "(" (by decide) next follows
  unfold named
  rw [components_complete _ used others next rest components noDot]
  simp only [except_ok_bind, noCall, Bool.false_eq_true, if_false]
  cases next with
  | str v => exact absurd follows (by simp [Follows, level])
  | _ => rfl

private theorem named_call (first : Text) (quoted : Bool) (used arguments : List Token)
    (others : List Text) (children : List ScalarNode) (components : Components used others)
    (read : CallArguments Inner arguments children) (short : arguments.length ≤ bound)
    (next : Token) (rest : List Token) (follows : Follows toLowerCase 9 next) :
    named toLowerCase expr first quoted (used ++ op "(" :: (arguments ++ op ")" :: next :: rest)) =
      .ok (callNode toLowerCase first quoted others children, next :: rest) := by
  have noDot : (op "(").isOp "." = false := by decide
  have opens : isOp (op "(" :: (arguments ++ op ")" :: next :: rest)) "(" = true :=
    (isOp_iff _ "(").mpr ⟨_, rfl⟩
  have noOrder : isWord toLowerCase (op ")" :: next :: rest) "order" = false := rfl
  have noFilter : isWord toLowerCase (next :: rest) "filter" = false :=
    follows_not_word toLowerCase 9 "filter" (by decide) next follows
  have noOver : isWord toLowerCase (next :: rest) "over" = false :=
    follows_not_word toLowerCase 9 "over" (by decide) next follows
  unfold named
  rw [components_complete _ used others _ _ components noDot]
  simp only [except_ok_bind, opens, if_true, List.tail_cons,
    callArguments_complete toLowerCase inner heads arguments children _ read short, noOrder,
    Bool.false_eq_true, if_false, expectOp_complete, noFilter, noOver, Bool.or_self]

omit heads in
private theorem parenthesised_complete (used : List Token) (node : ScalarNode) (rest : List Token)
    (read : Inner used node) (short : used.length ≤ bound) :
    parenthesised expr (used ++ op ")" :: rest) = .ok (node, rest) := by
  have closes := follows_op toLowerCase 0 ")" (by decide)
  have noComma : isOp (op ")" :: rest) "," = false := rfl
  unfold parenthesised
  rw [inner used node (op ")") rest read short closes]
  simp only [except_ok_bind, noComma, Bool.false_eq_true, if_false, expectOp_complete]

omit heads in
private theorem castCall_complete (used target : List Token) (as : Token) (child : ScalarNode)
    (type : CastTarget) (rest : List Token) (read : Inner used child)
    (asWord : as.isWord toLowerCase "as" = true) (typed : TypeName toLowerCase target type)
    (short : used.length ≤ bound) :
    castCall toLowerCase expr (used ++ as :: (target ++ op ")" :: rest)) =
      .ok (.cast type child, rest) := by
  have follows : Follows toLowerCase 0 as := by
    unfold Follows
    rw [isWord_level toLowerCase as "as" asWord]
    decide
  have isAs : isWord toLowerCase (as :: (target ++ op ")" :: rest)) "as" = true := asWord
  have typeRead := typeName_complete toLowerCase target type (op ")") rest typed
    (follows_ends_type toLowerCase _ (follows_op toLowerCase 9 ")" (by decide)))
  unfold castCall
  rw [inner used child as _ read short follows]
  simp only [except_ok_bind, isAs, if_true, List.tail_cons, typeRead, expectOp_complete]

omit inner heads in
private theorem unquotedWord_unreserved (toUpperCase : Text → Text) (v : Text)
    (tokens : List Token) (unreserved : toLowerCase v ∉ reserved) :
    unquotedWord toLowerCase toUpperCase expr v tokens =
      named toLowerCase expr v false tokens := by
  have other : ∀ word : String, text word ∈ reserved → toLowerCase v ≠ text word := by
    rintro word known same
    exact unreserved (same ▸ known)
  unfold unquotedWord
  simp only [other "null" (by decide), other "true" (by decide), other "false" (by decide),
    other "cast" (by decide), other "case" (by decide), unreserved, false_and, or_self, if_false]

private theorem primary_complete (toUpperCase : Text → Text) :
    CompleteFor (primary toLowerCase toUpperCase expr) (Primary toLowerCase Inner)
      (Follows toLowerCase 9) (bound + 1) := by
  intro used node next rest read short follows
  cases read with
  | numeral => rfl
  | string =>
      cases next with
      | str v => exact absurd follows (by simp [Follows, level])
      | _ => rfl
  | @parenthesised used node read =>
      simp only [List.length_cons, List.length_append] at short
      have whole : op "(" :: used ++ [op ")"] ++ next :: rest =
          op "(" :: (used ++ op ")" :: next :: rest) := by simp
      rw [whole]
      exact parenthesised_complete toLowerCase inner used node _ read (by omega)
  | @null token word =>
      cases token with
      | ident v quoted =>
          cases quoted with
          | true => cases word
          | false =>
              have null : toLowerCase v = text "null" := of_decide_eq_true word
              simp [primary, Sql.next, unquotedWord, null]
      | _ => cases word
  | @boolean token word =>
      cases token with
      | ident v quoted =>
          cases quoted with
          | true => rcases word with word | word <;> cases word
          | false =>
              have boolean : toLowerCase v = text "true" ∨ toLowerCase v = text "false" :=
                word.imp of_decide_eq_true of_decide_eq_true
              have notNull : toLowerCase v ≠ text "null" := by
                rintro null
                rw [null] at boolean
                exact absurd boolean (by decide)
              simp [primary, Sql.next, unquotedWord, notNull, boolean]
      | _ => rcases word with word | word <;> cases word
  | @cast token as used target child type word read asWord typed =>
      simp only [List.length_cons, List.length_append] at short
      have whole : token :: op "(" :: used ++ as :: target ++ [op ")"] ++ next :: rest =
          token :: op "(" :: (used ++ as :: (target ++ op ")" :: next :: rest)) := by simp
      rw [whole]
      have called := castCall_complete toLowerCase inner used target as child type (next :: rest)
        read asWord typed (by omega)
      cases token with
      | ident v quoted =>
          cases quoted with
          | true => cases word
          | false =>
              have cast : toLowerCase v = text "cast" := of_decide_eq_true word
              have notNull : text "cast" ≠ text "null" := by decide
              have notBoolean : ¬(text "cast" = text "true" ∨ text "cast" = text "false") := by
                decide
              have opens : isOp (op "(" :: (used ++ as :: (target ++ op ")" :: next :: rest))) "(" =
                  true := (isOp_iff _ "(").mpr ⟨_, rfl⟩
              unfold primary
              simp only [Sql.next, except_ok_bind, unquotedWord, cast, notNull, notBoolean, if_false,
                opens, true_and, if_true, List.tail_cons, called]
      | _ => cases word
  | @column v quoted used others nameable components =>
      have read : named toLowerCase expr v quoted (used ++ next :: rest) =
          .ok (.column (v :: others), next :: rest) :=
        named_column toLowerCase v quoted used others components next rest follows
      rw [List.cons_append]
      cases quoted with
      | true => exact read
      | false =>
          exact (unquotedWord_unreserved toLowerCase toUpperCase v _ (nameable rfl)).trans read
  | @call v quoted used arguments others children nameable components argumentsRead =>
      simp only [List.length_cons, List.length_append] at short
      have whole : Token.ident v quoted :: used ++ op "(" :: arguments ++ [op ")"] ++ next :: rest =
          Token.ident v quoted :: (used ++ op "(" :: (arguments ++ op ")" :: next :: rest)) := by
        simp
      rw [whole]
      have read := named_call toLowerCase inner heads v quoted used arguments others children
        components argumentsRead (by omega) next rest follows
      cases quoted with
      | true => exact read
      | false =>
          exact (unquotedWord_unreserved toLowerCase toUpperCase v _ (nameable rfl)).trans read

/-! ## Operators -/

omit inner heads in
private theorem castSuffix_complete :
    CompleteSuffixFor (castSuffix toLowerCase) (CastTail toLowerCase) (Follows toLowerCase 9)
      bound := by
  intro used wrap next rest read _ follows
  cases read with
  | cast typed =>
      have typeRead := typeName_complete toLowerCase _ _ next rest typed
        (follows_ends_type toLowerCase next follows)
      have isCast : ∀ others, isOp (op "::" :: others) "::" = true :=
        fun others => (isOp_iff _ "::").mpr ⟨others, rfl⟩
      simp only [List.cons_append, castSuffix, isCast, if_true, List.tail_cons, typeRead,
        except_ok_bind]

private theorem unary_complete (toUpperCase : Text → Text) :
    CompleteFor (unary toLowerCase toUpperCase expr) (Unary toLowerCase Inner)
      (Follows toLowerCase 8) (bound + 1) := by
  refine prefixed_complete (suffixed_complete
    (primary_complete toLowerCase inner heads toUpperCase) (castSuffix_complete toLowerCase) ?_
    (Follows.mono toLowerCase (by decide)) ?_) ?_
  · intro used wrap read
    cases read with
    | cast typed => exact ⟨_, _, rfl, follows_op toLowerCase 9 "::" (by decide)⟩
  · intro next rest follows
    have noCast : isOp (next :: rest) "::" = false :=
      follows_not_op toLowerCase 8 "::" (by decide) next follows
    have noBracket : isOp (next :: rest) "[" = false :=
      follows_not_op toLowerCase 8 "[" (by decide) next follows
    simp only [castSuffix, noCast, noBracket, Bool.false_eq_true, if_false]
  · exact ((primary_heads toLowerCase Inner).suffixed).mono (primary_not_sign toLowerCase)

omit inner heads in
/-- A left-associative level whose operators all bind as tightly as this. -/
private theorem leftAssociative_complete (tightness : Nat)
    {operator : Token → Option (ScalarNode → ScalarNode → ScalarNode)}
    {operand : Parser ScalarNode} {Operand : Strings ScalarNode}
    (levels : ∀ token, operator token ≠ none → level toLowerCase token = tightness + 1)
    (complete : CompleteFor operand Operand (Follows toLowerCase (tightness + 1)) bound) :
    CompleteFor (leftAssociative operator operand) (LeftAssociative operator Operand)
      (Follows toLowerCase tightness) bound := by
  refine suffixed_complete complete (infixSuffix_complete complete) ?_
    (Follows.mono toLowerCase (Nat.le_succ _)) ?_
  · exact Heads.infix.mono fun token known => (levels token known).le
  · intro next rest follows
    refine infixSuffix_stops next rest ?_
    by_contra known
    have same := levels next known
    unfold Follows at follows
    omega

private theorem otherOp_complete (toUpperCase : Text → Text) :
    CompleteFor (otherOp toLowerCase toUpperCase expr) (OtherOp toLowerCase Inner)
      (Follows toLowerCase 4) (bound + 1) := by
  have power := leftAssociative_complete toLowerCase 7
    (functionOperator_level toLowerCase ["^"] 8 (by decide))
    (unary_complete toLowerCase inner heads toUpperCase)
  have multiplicative := leftAssociative_complete toLowerCase 6
    (functionOperator_level toLowerCase ["*", "/", "%"] 7 (by decide)) power
  have additive := leftAssociative_complete toLowerCase 5
    (functionOperator_level toLowerCase ["+", "-"] 6 (by decide)) multiplicative
  exact leftAssociative_complete toLowerCase 4
    (functionOperator_level toLowerCase ["||", "//", "**"] 5 (by decide)) additive

omit inner heads in
private theorem comparisonOperator_level (token : Token) (known : comparisonOperator token ≠ none) :
    level toLowerCase token = 4 := by
  have every : ∀ v ∈ comparisonOps.map text, opLevel v = 4 := by decide
  cases token with
  | op v =>
      unfold comparisonOperator at known
      by_cases member : v ∈ comparisonOps.map text
      · exact every v member
      · simp [member] at known
  | _ => exact absurd rfl known

private theorem comparison_complete (toUpperCase : Text → Text) :
    CompleteFor (comparison toLowerCase toUpperCase expr) (Comparison toLowerCase Inner)
      (Follows toLowerCase 3) (bound + 1) := by
  have operand := otherOp_complete toLowerCase inner heads toUpperCase
  intro used node next rest read short follows
  have stops : comparisonOperator next = none := by
    by_contra known
    have same := comparisonOperator_level toLowerCase next known
    unfold Follows at follows
    omega
  cases read with
  | operand read =>
      have outside : (outsideWords.find? fun entry => isWord toLowerCase (next :: rest) entry.1) =
          none := by
        have every : ∀ entry ∈ outsideWords, 3 < wordLevel (text entry.1) := by decide
        refine List.find?_eq_none.mpr ?_
        intro entry member
        have notWord : isWord toLowerCase (next :: rest) entry.1 = false :=
          follows_not_word toLowerCase 3 entry.1 (every entry member) next follows
        simp [notWord]
      have read := operand used node next rest read short
        (Follows.mono toLowerCase (by decide) next follows)
      have peeked : peek (next :: rest) 0 = next := rfl
      simp only [comparison, read, except_ok_bind, peeked, stops, outside]
  | @compared used usedRight token left right combine readLeft known readRight =>
      simp only [List.length_append, List.length_cons] at short
      have tight : Follows toLowerCase 4 token :=
        (comparisonOperator_level toLowerCase token (by simp [known])).le
      have leftRead := operand used left token (usedRight ++ next :: rest) readLeft (by omega) tight
      have rightRead := operand usedRight right next rest readRight (by omega)
        (Follows.mono toLowerCase (by decide) next follows)
      have whole : used ++ token :: usedRight ++ next :: rest =
          used ++ token :: (usedRight ++ next :: rest) := List.append_assoc _ _ _
      have peeked : peek (token :: (usedRight ++ next :: rest)) 0 = token := rfl
      have behind : peek (next :: rest) 0 = next := rfl
      rw [whole]
      simp only [comparison, leftRead, except_ok_bind, peeked, known, List.tail_cons, rightRead,
        behind, stops, Option.isSome_none, Bool.false_eq_true, if_false]

omit inner heads in
private theorem isSuffix_complete :
    CompleteSuffixFor (isSuffix toLowerCase) (IsTail toLowerCase) (Follows toLowerCase 3)
      bound := by
  have unlike : ∀ (token : Token) (word other : String), text word ≠ text other →
      token.isWord toLowerCase word = true → token.isWord toLowerCase other = false := by
    intro token word other different known
    cases token with
    | ident v quoted =>
        cases quoted with
        | true => cases known
        | false =>
            have same : toLowerCase v = text word := of_decide_eq_true known
            simp [Token.isWord, same, different]
    | _ => cases known
  intro used wrap next rest read _ follows
  cases read with
  | isnull word => simp [isSuffix, isWord, peek, word]
  | @notnull token word =>
      have notIsnull := unlike token "notnull" "isnull" (by decide) word
      simp [isSuffix, isWord, peek, word, notIsnull]
  | @isNull is null isWordIs nullWord =>
      have notIsnull := unlike is "is" "isnull" (by decide) isWordIs
      have notNotnull := unlike is "is" "notnull" (by decide) isWordIs
      have notNot := unlike null "null" "not" (by decide) nullWord
      simp [isSuffix, isWord, peek, isWordIs, notIsnull, notNotnull, notNot, nullWord]
  | @isNotNull is not null isWordIs notWord nullWord =>
      have notIsnull := unlike is "is" "isnull" (by decide) isWordIs
      have notNotnull := unlike is "is" "notnull" (by decide) isWordIs
      simp [isSuffix, isWord, peek, isWordIs, notIsnull, notNotnull, notWord, nullWord]

private theorem not_complete (toUpperCase : Text → Text) :
    CompleteFor (not toLowerCase toUpperCase expr) (Not toLowerCase Inner)
      (Follows toLowerCase 2) (bound + 1) := by
  refine prefixed_complete (suffixed_complete
    (comparison_complete toLowerCase inner heads toUpperCase) (isSuffix_complete toLowerCase) ?_
    (Follows.mono toLowerCase (by decide)) ?_) ?_
  · have every : ∀ word ∈ ["is", "isnull", "notnull"], wordLevel (text word) ≤ 3 := by decide
    have starts : ∀ (token : Token) (word : String), word ∈ ["is", "isnull", "notnull"] →
        token.isWord toLowerCase word = true → Follows toLowerCase 3 token := by
      intro token word member known
      unfold Follows
      rw [isWord_level toLowerCase token word known]
      exact every word member
    intro used wrap read
    cases read with
    | isnull word => exact ⟨_, _, rfl, starts _ "isnull" (by decide) word⟩
    | notnull word => exact ⟨_, _, rfl, starts _ "notnull" (by decide) word⟩
    | isNull word _ => exact ⟨_, _, rfl, starts _ "is" (by decide) word⟩
    | isNotNull word _ _ => exact ⟨_, _, rfl, starts _ "is" (by decide) word⟩
  · intro next rest follows
    have noIsnull : isWord toLowerCase (next :: rest) "isnull" = false :=
      follows_not_word toLowerCase 2 "isnull" (by decide) next follows
    have noNotnull : isWord toLowerCase (next :: rest) "notnull" = false :=
      follows_not_word toLowerCase 2 "notnull" (by decide) next follows
    have noIs : isWord toLowerCase (next :: rest) "is" = false :=
      follows_not_word toLowerCase 2 "is" (by decide) next follows
    simp only [isSuffix, noIsnull, noNotnull, noIs, Bool.false_eq_true, if_false]
  · refine (is_heads toLowerCase Inner).mono ?_
    intro token starts
    have notNot := starts_not_word toLowerCase token "not" (by decide) (by decide) starts
    simp [wordOperator, notNot]

private theorem or_complete (toUpperCase : Text → Text) :
    CompleteFor (or toLowerCase toUpperCase expr) (Or toLowerCase Inner)
      (Follows toLowerCase 0) (bound + 1) := by
  have and : CompleteFor (and toLowerCase toUpperCase expr) (And toLowerCase Inner)
      (Follows toLowerCase 1) (bound + 1) :=
    leftAssociative_complete toLowerCase 1
      (fun token known => (wordOperator_level toLowerCase "and" _ token known).trans (by decide))
      (not_complete toLowerCase inner heads toUpperCase)
  exact leftAssociative_complete toLowerCase 0
    (fun token known => (wordOperator_level toLowerCase "or" _ token known).trans (by decide)) and

end

theorem expr_complete (toLowerCase toUpperCase : Text → Text) (depth bound fuel : Nat)
    (enough : bound ≤ fuel) :
    CompleteFor (expr toLowerCase toUpperCase fuel) (ExpressionTo toLowerCase depth)
      (Follows toLowerCase 0) bound := by
  induction depth generalizing bound fuel with
  | zero => exact fun used node next rest read => read.elim
  | succ depth ih =>
      intro used node next rest read short follows
      cases bound with
      | zero =>
          obtain ⟨head, tail, rfl, _⟩ := expression_heads toLowerCase (depth + 1) used node read
          exact absurd short (Nat.not_succ_le_zero _)
      | succ bound =>
          obtain ⟨fuel, rfl⟩ : ∃ less, fuel = less + 1 := ⟨fuel - 1, by omega⟩
          exact or_complete toLowerCase (ih bound fuel (Nat.le_of_succ_le_succ enough))
            (expression_heads toLowerCase depth) toUpperCase used node next rest read short follows

theorem parseAll_complete (toLowerCase toUpperCase : Text → Text) (body : List Token)
    (node : ScalarNode) (read : Expression toLowerCase body node) :
    parseAll toLowerCase toUpperCase (body ++ [.endOfInput]) = .ok node := by
  obtain ⟨depth, read⟩ := read
  have long : body.length ≤ (body ++ [Token.endOfInput]).length := by simp
  have parsed := expr_complete toLowerCase toUpperCase depth body.length _ long body node
    .endOfInput [] read le_rfl (Nat.zero_le _)
  unfold parseAll
  rw [parsed]
  rfl

end VgiWorker.Catalog.Sql
