import VgiWorker.Data.Descent
import VgiWorker.Js.Number

/-!
# Tokens of scalar SQL

The tokenizer of the bounded DuckDB scalar grammar, on the code units that are
left of the SQL text.
-/

set_option autoImplicit false

namespace VgiWorker.Catalog.Sql

open VgiWorker.Js

/-- What ends a reading: a `GrammarError`, or what the model adds to it, a token read behind the
last one and a loop that does not end. -/
inductive Fault where
  | grammarError (message : Text)
  | pastEnd
  | endless
  deriving DecidableEq

def fail {α : Type} (message : Text) : Except Fault α :=
  .error (.grammarError message)

def Fault.IsGrammarError (fault : Fault) : Prop :=
  ∃ message, fault = .grammarError message

inductive Token where
  | num (v : Text)
  | str (v : Text)
  | ident (v : Text) (quoted : Bool)
  | op (v : Text)
  | endOfInput
  deriving DecidableEq

def operators : List Text :=
  ["::", "<=", ">=", "<>", "!=", "==", "||", "//", "**", "=", "<", ">", "+", "-", "*", "/", "%",
    "^", "(", ")", ",", "."].map text

/-- `/[A-Za-z_]/`. -/
def isLetter (unit : CodeUnit) : Bool :=
  let code := unit.toNat
  decide ((65 ≤ code ∧ code ≤ 90) ∨ (97 ≤ code ∧ code ≤ 122) ∨ code = 95)

/-- `/[A-Za-z_\u0080-\uffff]/`. -/
def startsIdent (unit : CodeUnit) : Bool :=
  isLetter unit || decide (0x80 ≤ unit.toNat)

/-- `/[A-Za-z0-9_$\u0080-\uffff]/`. -/
def continuesIdent (unit : CodeUnit) : Bool :=
  startsIdent unit || Number.isDigit unit || decide (unit.toNat = 36)

def dropLine (rest : Text) : Text :=
  rest.dropWhile fun unit => unit != 10

/-- What follows the first close of a comment. -/
def afterComment : Text → Option Text
  | [] => none
  | [_] => none
  | first :: second :: rest =>
      if first = 42 ∧ second = 47 then some rest else afterComment (second :: rest)

def readSign (rest : Text) : Text × Text :=
  match rest with
  | unit :: others => if unit = 43 ∨ unit = 45 then ([unit], others) else ([], rest)
  | [] => ([], [])

/-- The exponent of a numeral, if its digits follow. -/
def readExponent (rest : Text) : Text × Text :=
  match rest with
  | marker :: others =>
      let (sign, unsigned) := readSign others
      let digits := unsigned.takeWhile Number.isDigit
      if (marker = 101 ∨ marker = 69) ∧ digits ≠ [] then
        (marker :: sign ++ digits, unsigned.dropWhile Number.isDigit)
      else ([], rest)
  | [] => ([], [])

/-- A numeral that starts with a digit, or with a point and a digit. -/
def readNumeral (rest : Text) : Text × Text :=
  let whole := rest.takeWhile Number.isDigit
  let (fraction, rest) :=
    match rest.dropWhile Number.isDigit with
    | 46 :: others => (46 :: others.takeWhile Number.isDigit, others.dropWhile Number.isDigit)
    | others => ([], others)
  let (exponent, rest) := readExponent rest
  (whole ++ fraction ++ exponent, rest)

/-- The text up to the closing quote, a doubled quote standing for one, and what follows. -/
def readQuoted (quote : CodeUnit) : Text → Option (Text × Text)
  | [] => none
  | [unit] => if unit = quote then some ([], []) else none
  | unit :: next :: rest =>
      if unit = quote then
        if next = quote then (readQuoted quote rest).map fun (held, after) => (quote :: held, after)
        else some ([], next :: rest)
      else (readQuoted quote (next :: rest)).map fun (held, after) => (unit :: held, after)

/-- One turn of the tokenizer: the token read, if there is one, and what follows it. -/
def nextToken (c : CodeUnit) (rest : Text) : Except Fault (Option Token × Text) :=
  if Number.isWhiteSpace c then .ok (none, rest)
  else if (text "--").isPrefixOf (c :: rest) then .ok (none, dropLine (c :: rest))
  else if (text "/*").isPrefixOf (c :: rest) then
    match afterComment (rest.drop 1) with
    | some after => .ok (none, after)
    | none => fail (text "unterminated comment")
  else if Number.isDigit c || (c == 46 && (rest.head?.any Number.isDigit)) then
    let (numeral, after) := readNumeral (c :: rest)
    if after.head?.any isLetter then fail (text "unsupported numeric literal")
    else .ok (some (.num numeral), after)
  else if c = 39 ∨ c = 34 then
    match readQuoted c rest with
    | some (held, after) => .ok (some (if c = 39 then .str held else .ident held true), after)
    | none => fail (text "unterminated quoted text")
  else if startsIdent c then
    .ok (some (.ident (c :: rest.takeWhile continuesIdent) false), rest.dropWhile continuesIdent)
  else
    match operators.find? fun o => o.isPrefixOf (c :: rest) with
    | some op => .ok (some (.op op), (c :: rest).drop op.length)
    | none => fail (text "unsupported character '" ++ [c] ++ text "'")

def tokenizeFrom : Nat → Text → Except Fault (List Token)
  | 0, _ => .error .endless
  | _ + 1, [] => .ok [.endOfInput]
  | fuel + 1, c :: rest => do
      let (token, after) ← nextToken c rest
      let tokens ← tokenizeFrom fuel after
      .ok (token.toList ++ tokens)

def tokenize (sql : Text) : Except Fault (List Token) :=
  tokenizeFrom (sql.length + 1) sql

/-! ## Every turn moves on -/

private theorem length_dropWhile_le (keep : CodeUnit → Bool) (string : Text) :
    (string.dropWhile keep).length ≤ string.length :=
  (List.dropWhile_sublist keep).length_le

private theorem afterComment_length (rest after : Text) (closed : afterComment rest = some after) :
    after.length ≤ rest.length := by
  induction rest using afterComment.induct with
  | case1 => cases closed
  | case2 => cases closed
  | case3 first second rest isClose =>
      simp only [afterComment, isClose, and_self, if_true, Option.some.injEq] at closed
      subst closed
      simp only [List.length_cons]
      omega
  | case4 first second rest notClose ih =>
      simp only [afterComment, notClose, if_false] at closed
      exact (ih closed).trans (Nat.le_succ _)

private theorem readSign_length (rest : Text) : (readSign rest).2.length ≤ rest.length := by
  unfold readSign
  split
  · split
    · exact Nat.le_succ _
    · exact le_rfl
  · exact le_rfl

private theorem readExponent_length (rest : Text) :
    (readExponent rest).2.length ≤ rest.length := by
  unfold readExponent
  split
  · rename_i marker others
    dsimp only
    split
    · exact ((length_dropWhile_le _ _).trans (readSign_length others)).trans (Nat.le_succ _)
    · exact le_rfl
  · exact le_rfl

private theorem readNumeral_length (c : CodeUnit) (rest : Text)
    (starts : (Number.isDigit c || (c == 46 && (rest.head?.any Number.isDigit))) = true) :
    (readNumeral (c :: rest)).2.length ≤ rest.length := by
  unfold readNumeral
  dsimp only
  refine (readExponent_length _).trans ?_
  cases digit : Number.isDigit c with
  | true =>
      rw [List.dropWhile_cons_of_pos (by simpa using digit)]
      have shorter := length_dropWhile_le Number.isDigit rest
      split
      · rename_i others same
        rw [same] at shorter
        exact ((length_dropWhile_le _ _).trans (Nat.le_succ _)).trans shorter
      · exact shorter
  | false =>
      rw [List.dropWhile_cons_of_neg (by simp [digit])]
      rw [digit, Bool.false_or, Bool.and_eq_true, beq_iff_eq] at starts
      obtain ⟨rfl, _⟩ := starts
      exact length_dropWhile_le _ _

private theorem readQuoted_length (quote : CodeUnit) (rest held after : Text)
    (read : readQuoted quote rest = some (held, after)) : after.length ≤ rest.length := by
  fun_induction readQuoted quote rest generalizing held with
  | case1 => cases read
  | case2 =>
      cases read
      exact Nat.le_succ _
  | case3 => cases read
  | case4 rest ih =>
      obtain ⟨⟨inner, _⟩, readRest, same⟩ := Option.map_eq_some_iff.mp read
      cases same
      exact (ih inner readRest).trans ((Nat.le_succ _).trans (Nat.le_succ _))
  | case5 next rest =>
      cases read
      exact Nat.le_succ _
  | case6 first next rest notQuote ih =>
      obtain ⟨⟨inner, _⟩, readRest, same⟩ := Option.map_eq_some_iff.mp read
      cases same
      exact (ih inner readRest).trans (Nat.le_succ _)

private theorem operator_length (op : Text) (known : op ∈ operators) : 0 < op.length := by
  have every : ∀ op ∈ operators, 0 < op.length := by decide
  exact every op known

private theorem comment_start (c : CodeUnit) (rest : Text)
    (comment : (text "--").isPrefixOf (c :: rest) = true) : c ≠ 10 := by
  rintro rfl
  have dashes : text "--" = [45, 45] := by decide
  simp [dashes] at comment

/-- A turn reads at least one code unit, and no token of it ends the input. -/
theorem nextToken_spec (c : CodeUnit) (rest : Text) :
    VgiWorker.Outcome Fault.IsGrammarError
      (fun read => read.2.length ≤ rest.length ∧ read.1 ≠ some .endOfInput)
      (nextToken c rest) := by
  unfold nextToken
  split
  · exact ⟨le_rfl, nofun⟩
  split
  · rename_i comment
    refine ⟨?_, nofun⟩
    dsimp only [dropLine]
    rw [List.dropWhile_cons_of_pos (by simpa using comment_start c rest comment)]
    exact length_dropWhile_le _ _
  split
  · cases closed : afterComment (rest.drop 1) with
    | none => exact ⟨_, rfl⟩
    | some after =>
        refine ⟨(afterComment_length _ after closed).trans ?_, nofun⟩
        simp
  split
  · rename_i starts
    have shorter := readNumeral_length c rest starts
    generalize readNumeral (c :: rest) = read at shorter ⊢
    obtain ⟨numeral, after⟩ := read
    dsimp only
    split
    · exact ⟨_, rfl⟩
    · exact ⟨shorter, nofun⟩
  split
  · cases read : readQuoted c rest with
    | none => exact ⟨_, rfl⟩
    | some both =>
        obtain ⟨held, after⟩ := both
        refine ⟨readQuoted_length c rest held after read, ?_⟩
        dsimp only
        split <;> nofun
  split
  · exact ⟨length_dropWhile_le _ _, nofun⟩
  · cases found : operators.find? fun o => o.isPrefixOf (c :: rest) with
    | none => exact ⟨_, rfl⟩
    | some op =>
        have long := operator_length op (List.mem_of_find?_eq_some found)
        refine ⟨?_, nofun⟩
        simp only [List.length_drop, List.length_cons]
        omega

/-- The end of the input stands behind the other tokens, and nowhere among them. -/
abbrev Ended (tokens : List Token) : Prop :=
  EndsWith Token.endOfInput tokens

theorem tokenizeFrom_spec (fuel : Nat) (sql : Text) (enough : sql.length < fuel) :
    VgiWorker.Outcome Fault.IsGrammarError Ended (tokenizeFrom fuel sql) := by
  induction fuel generalizing sql with
  | zero => exact absurd enough (Nat.not_lt_zero _)
  | succ fuel ih =>
      cases sql with
      | nil => exact ⟨[], List.not_mem_nil, rfl⟩
      | cons c rest =>
          refine (nextToken_spec c rest).bind ?_
          rintro ⟨token, after⟩ ⟨shorter, notEnd⟩
          have enoughLeft : after.length < fuel :=
            shorter.trans_lt (Nat.lt_of_succ_lt_succ enough)
          refine (ih after enoughLeft).bind ?_
          rintro _ ⟨body, clean, rfl⟩
          exact ⟨token.toList ++ body, by simpa [clean] using notEnd, by simp⟩

theorem tokenize_spec (sql : Text) : VgiWorker.Outcome Fault.IsGrammarError Ended (tokenize sql) :=
  tokenizeFrom_spec _ sql (Nat.lt_succ_self _)

end VgiWorker.Catalog.Sql
