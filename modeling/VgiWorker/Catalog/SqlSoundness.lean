import VgiWorker.Catalog.SqlGrammar

/-!
# What the parser reads

Every level of the parser reads a string of its level of the grammar, or refuses
with a grammar error: it does not loop, and reads no token behind the last one.
-/

set_option autoImplicit false

namespace VgiWorker.Catalog.Sql

open VgiWorker.Js Grammar

/-! ## Looking at the tokens -/

theorem Token.isOp_iff (token : Token) (v : String) : token.isOp v = true ↔ token = Grammar.op v :=
  decide_eq_true_iff

theorem isOp_iff (tokens : List Token) (v : String) :
    isOp tokens v = true ↔ ∃ rest, tokens = op v :: rest := by
  cases tokens with
  | nil => simp [isOp, peek, Token.isOp]
  | cons token rest => simp [isOp, peek, Token.isOp, op]

theorem op_ne_end (v : String) : op v ≠ .endOfInput := nofun

theorem isWord_ne_end (toLowerCase : Text → Text) (token : Token) (word : String)
    (known : token.isWord toLowerCase word = true) : token ≠ .endOfInput := by
  rintro rfl
  cases known

theorem isWord_iff (toLowerCase : Text → Text) (tokens : List Token) (word : String) :
    isWord toLowerCase tokens word = true ↔
      ∃ token rest, tokens = token :: rest ∧ token.isWord toLowerCase word = true := by
  cases tokens with
  | nil => exact iff_of_false nofun nofun
  | cons token rest =>
      constructor
      · exact fun known => ⟨token, rest, rfl, known⟩
      · rintro ⟨_, _, same, known⟩
        cases same
        exact known

private theorem refuses {Value : Type} (good : Value → Prop) (message : Text) :
    VgiWorker.Outcome Fault.IsGrammarError good (fail message) :=
  ⟨message, rfl⟩

private theorem expectOp_sound (v : String) (tokens : List Token) (ends : Ended tokens) :
    VgiWorker.Outcome Fault.IsGrammarError (fun rest => tokens = op v :: rest ∧ Ended rest)
      (expectOp v tokens) := by
  unfold expectOp
  split
  · rename_i found
    obtain ⟨rest, rfl⟩ := (isOp_iff tokens v).mp found
    exact ⟨rfl, ends.tail (op_ne_end v)⟩
  · exact refuses _ _

abbrev ReadsSql {Value : Type} (language : Strings Value) :
    List Token → Value × List Token → Prop :=
  Reads Token.endOfInput language

abbrev SoundTo {Value : Type} (parser : Parser Value) (language : Strings Value) (bound : Nat) :
    Prop :=
  SoundFor Token.endOfInput Fault.IsGrammarError parser language bound

/-! ## Names and types -/

private theorem components_sound (refusal : Text) (tokens : List Token) (ends : Ended tokens) :
    VgiWorker.Outcome Fault.IsGrammarError (ReadsSql Components tokens) (components refusal tokens) := by
  fun_induction components refusal tokens with
  | case1 token isDot v quoted rest ih =>
      obtain rfl := (token.isOp_iff ".").mp isDot
      refine (ih ((ends.tail (op_ne_end _)).tail nofun)).bind ?_
      rintro ⟨names, left⟩ ⟨leftEnds, used, rfl, read⟩
      exact ⟨leftEnds, _ :: _ :: used, rfl, .more read⟩
  | case2 token isDot =>
      obtain rfl := (token.isOp_iff ".").mp isDot
      exact absurd rfl (ends.tail (op_ne_end _)).ne_nil
  | case3 => exact refuses _ _
  | case4 token rest notDot => exact ⟨ends, [], rfl, .last⟩
  | case5 => exact absurd rfl ends.ne_nil

private theorem typeParameters_sound (tokens : List Token) (ends : Ended tokens) :
    VgiWorker.Outcome Fault.IsGrammarError (ReadsSql TypeParameters tokens) (typeParameters tokens) := by
  fun_induction typeParameters tokens with
  | case1 v token rest isComma ih =>
      obtain rfl := (token.isOp_iff ",").mp isComma
      refine (ih ((ends.tail nofun).tail (op_ne_end _))).bind ?_
      rintro ⟨params, left⟩ ⟨leftEnds, used, rfl, read⟩
      exact ⟨leftEnds, _ :: _ :: used, rfl, .more read⟩
  | case2 v token rest notComma => exact ⟨ends.tail nofun, [.num v], rfl, .last⟩
  | case3 v => exact absurd rfl (ends.tail nofun).ne_nil
  | case4 => exact absurd rfl ends.ne_nil
  | case5 => exact refuses _ _

private theorem parameterList_sound (tokens : List Token) (ends : Ended tokens) :
    VgiWorker.Outcome Fault.IsGrammarError (ReadsSql ParameterList tokens) (parameterList tokens) := by
  unfold parameterList
  split
  · rename_i opens
    obtain ⟨rest, rfl⟩ := (isOp_iff tokens "(").mp opens
    refine (typeParameters_sound rest (ends.tail (op_ne_end _))).bind ?_
    rintro ⟨params, left⟩ ⟨leftEnds, used, rfl, read⟩
    refine (expectOp_sound ")" left leftEnds).bind ?_
    rintro closed ⟨rfl, closedEnds⟩
    exact ⟨closedEnds, op "(" :: used ++ [op ")"], by simp, .given read⟩
  · exact ⟨ends, [], rfl, .absent⟩

private theorem secondWord_sound (toLowerCase : Text → Text) (first : Text) (tokens : List Token)
    (ends : Ended tokens) :
    ReadsSql (SecondWord toLowerCase first) tokens (secondWord toLowerCase first tokens) := by
  unfold secondWord
  split
  · rename_i both
    obtain ⟨token, rest, rfl, word⟩ := (isWord_iff toLowerCase tokens "precision").mp both.2
    exact ⟨ends.tail (isWord_ne_end _ _ _ word), [token], rfl, .precision both.1 word⟩
  · split
    · rename_i both
      obtain ⟨token, rest, rfl, word⟩ := (isWord_iff toLowerCase tokens "varying").mp both.2
      exact ⟨ends.tail (isWord_ne_end _ _ _ word), [token], rfl, .varying both.1 word⟩
    · exact ⟨ends, [], rfl, .absent⟩

private theorem typeName_sound (toLowerCase : Text → Text) (tokens : List Token)
    (ends : Ended tokens) :
    VgiWorker.Outcome Fault.IsGrammarError (Leaves Token.endOfInput (TypeName toLowerCase) tokens)
      (typeName toLowerCase tokens) := by
  cases tokens with
  | nil => exact absurd rfl ends.ne_nil
  | cons t rest =>
      cases t with
      | ident v quoted =>
          refine (components_sound _ rest (ends.tail nofun)).bind ?_
          rintro ⟨others, left⟩ ⟨leftEnds, qualifiers, rfl, qualified⟩
          have second := secondWord_sound toLowerCase (toLowerCase v) left leftEnds
          dsimp only at second ⊢
          generalize secondWord toLowerCase (toLowerCase v) left = word at second ⊢
          obtain ⟨name, behind⟩ := word
          obtain ⟨behindEnds, secondUsed, rfl, secondRead⟩ := second
          refine (parameterList_sound behind behindEnds).bind ?_
          rintro ⟨params, after⟩ ⟨afterEnds, parameters, rfl, list⟩
          dsimp only
          split
          · exact refuses _ _
          · exact ⟨afterEnds, .ident v quoted :: qualifiers ++ secondUsed ++ parameters, by simp,
              by simp, .named qualified secondRead list⟩
      | _ => exact refuses _ _

/-! ## Primary expressions -/

theorem isNamedArgument_append (used rest : List Token) (isNamed : isNamedArgument used = true) :
    isNamedArgument (used ++ rest) = true := by
  cases used with
  | nil => simp [isNamedArgument, peek, Token.isOp] at isNamed
  | cons first others =>
      cases others with
      | nil => simp [isNamedArgument, peek, Token.isOp] at isNamed
      | cons second others => exact isNamed

section

variable (toLowerCase : Text → Text) {expr : Parser ScalarNode} {Inner : Strings ScalarNode}
  {bound : Nat} (inner : SoundTo expr Inner bound)

include inner

private theorem argumentsFrom_sound (fuel : Nat) (tokens : List Token) (ends : Ended tokens)
    (short : tokens.length ≤ bound) (enough : tokens.length < fuel) :
    VgiWorker.Outcome Fault.IsGrammarError (ReadsSql (Arguments Inner) tokens)
      (argumentsFrom expr fuel tokens) := by
  induction fuel generalizing tokens with
  | zero => exact absurd enough (Nat.not_lt_zero _)
  | succ fuel ih =>
      unfold argumentsFrom
      split
      · exact refuses _ _
      split
      · exact refuses _ _
      rename_i notNamed
      refine (inner tokens ends short).bind ?_
      rintro ⟨child, left⟩ ⟨leftEnds, used, nonempty, same, read⟩
      dsimp only at leftEnds same
      subst same
      have positional : isNamedArgument used = false := by
        cases isNamed : isNamedArgument used with
        | false => rfl
        | true => exact absurd (isNamedArgument_append used left isNamed) notNamed
      dsimp only
      split
      · rename_i isComma
        obtain ⟨rest, rfl⟩ := (isOp_iff left ",").mp isComma
        have shorter : rest.length < (used ++ op "," :: rest).length := by
          simp only [List.length_append, List.length_cons]
          omega
        refine (ih rest (leftEnds.tail (op_ne_end _)) (shorter.le.trans short)
          (shorter.trans_le (Nat.le_of_lt_succ enough))).bind ?_
        rintro ⟨children, after⟩ ⟨afterEnds, others, rfl, readOthers⟩
        exact ⟨afterEnds, used ++ op "," :: others, by simp, .more positional read readOthers⟩
      · exact ⟨leftEnds, used, rfl, .last positional read⟩

private theorem callArguments_sound (tokens : List Token) (ends : Ended tokens)
    (short : tokens.length ≤ bound) :
    VgiWorker.Outcome Fault.IsGrammarError (ReadsSql (CallArguments Inner) tokens)
      (callArguments toLowerCase expr tokens) := by
  unfold callArguments
  split
  · exact refuses _ _
  split
  · exact ⟨ends, [], rfl, .none⟩
  · refine (argumentsFrom_sound inner _ tokens ends short (Nat.lt_succ_self _)).mono ?_
    rintro ⟨children, left⟩ ⟨leftEnds, used, rfl, read⟩
    exact ⟨leftEnds, used, rfl, .given read⟩

private theorem named_sound (first : Text) (quoted : Bool)
    (nameable : Nameable toLowerCase first quoted) (tokens : List Token) (ends : Ended tokens)
    (short : tokens.length ≤ bound) :
    VgiWorker.Outcome Fault.IsGrammarError
      (Leaves Token.endOfInput (Primary toLowerCase Inner) (.ident first quoted :: tokens))
      (named toLowerCase expr first quoted tokens) := by
  refine (components_sound _ tokens ends).bind ?_
  rintro ⟨others, left⟩ ⟨leftEnds, used, same, components⟩
  dsimp only at leftEnds same
  subst same
  dsimp only
  split
  · rename_i opens
    obtain ⟨rest, rfl⟩ := (isOp_iff left "(").mp opens
    have shorter : rest.length ≤ bound := by
      simp only [List.length_append, List.length_cons] at short
      omega
    refine (callArguments_sound toLowerCase inner rest (leftEnds.tail (op_ne_end _)) shorter).bind ?_
    rintro ⟨children, after⟩ ⟨afterEnds, arguments, rfl, read⟩
    dsimp only
    split
    · exact refuses _ _
    refine (expectOp_sound ")" after afterEnds).bind ?_
    rintro closed ⟨rfl, closedEnds⟩
    split
    · exact refuses _ _
    · exact ⟨closedEnds, .ident first quoted :: used ++ op "(" :: arguments ++ [op ")"], by simp,
        by simp, .call nameable components read⟩
  · split
    · exact refuses _ _
    · exact ⟨leftEnds, .ident first quoted :: used, List.cons_ne_nil _ _, rfl,
        .column nameable components⟩

private theorem castCall_sound (token : Token) (word : token.isWord toLowerCase "cast" = true)
    (tokens : List Token) (ends : Ended tokens) (short : tokens.length ≤ bound) :
    VgiWorker.Outcome Fault.IsGrammarError
      (Leaves Token.endOfInput (Primary toLowerCase Inner) (token :: op "(" :: tokens))
      (castCall toLowerCase expr tokens) := by
  refine (inner tokens ends short).bind ?_
  rintro ⟨child, left⟩ ⟨leftEnds, used, _, rfl, read⟩
  dsimp only
  split
  · rename_i isAs
    obtain ⟨as, rest, rfl, asWord⟩ := (isWord_iff toLowerCase left "as").mp isAs
    refine (typeName_sound toLowerCase rest (leftEnds.tail (isWord_ne_end _ _ _ asWord))).bind ?_
    rintro ⟨target, after⟩ ⟨afterEnds, typeUsed, _, rfl, typed⟩
    refine (expectOp_sound ")" after afterEnds).bind ?_
    rintro closed ⟨rfl, closedEnds⟩
    exact ⟨closedEnds, token :: op "(" :: used ++ as :: typeUsed ++ [op ")"], by simp, by simp,
      .cast word read asWord typed⟩
  · exact refuses _ _

private theorem parenthesised_sound (tokens : List Token) (ends : Ended tokens)
    (short : tokens.length ≤ bound) :
    VgiWorker.Outcome Fault.IsGrammarError
      (Leaves Token.endOfInput (Primary toLowerCase Inner) (op "(" :: tokens))
      (parenthesised expr tokens) := by
  refine (inner tokens ends short).bind ?_
  rintro ⟨node, left⟩ ⟨leftEnds, used, _, rfl, read⟩
  dsimp only
  split
  · exact refuses _ _
  refine (expectOp_sound ")" left leftEnds).bind ?_
  rintro closed ⟨rfl, closedEnds⟩
  exact ⟨closedEnds, op "(" :: used ++ [op ")"], by simp, by simp, .parenthesised read⟩

variable (toUpperCase : Text → Text)

private theorem unquotedWord_sound (v : Text) (tokens : List Token) (ends : Ended tokens)
    (short : tokens.length ≤ bound) :
    VgiWorker.Outcome Fault.IsGrammarError
      (Leaves Token.endOfInput (Primary toLowerCase Inner) (.ident v false :: tokens))
      (unquotedWord toLowerCase toUpperCase expr v tokens) := by
  unfold unquotedWord
  dsimp only
  split
  · rename_i null
    exact ⟨ends, [.ident v false], List.cons_ne_nil _ _, rfl, .null (by simp [Token.isWord, null])⟩
  split
  · rename_i boolean
    exact ⟨ends, [.ident v false], List.cons_ne_nil _ _, rfl,
      .boolean (by simpa [Token.isWord] using boolean)⟩
  split
  · rename_i cast
    obtain ⟨rest, rfl⟩ := (isOp_iff tokens "(").mp cast.2
    exact castCall_sound toLowerCase inner (.ident v false) (by simp [Token.isWord, cast.1]) rest
      (ends.tail (op_ne_end _)) ((Nat.le_succ _).trans short)
  split
  · exact refuses _ _
  split
  · exact refuses _ _
  · rename_i unreserved
    exact named_sound toLowerCase inner v false (fun _ => unreserved) tokens ends short

private theorem primary_sound :
    SoundTo (primary toLowerCase toUpperCase expr) (Primary toLowerCase Inner) (bound + 1) := by
  intro tokens ends short
  cases tokens with
  | nil => exact absurd rfl ends.ne_nil
  | cons t rest =>
      have shorter : rest.length ≤ bound := Nat.le_of_succ_le_succ short
      cases t with
      | num v => exact ⟨ends.tail nofun, [.num v], List.cons_ne_nil _ _, rfl, .numeral⟩
      | str v =>
          unfold primary
          simp only [next, except_ok_bind]
          split
          · exact refuses _ _
          · exact ⟨ends.tail nofun, [.str v], List.cons_ne_nil _ _, rfl, .string⟩
      | op v =>
          unfold primary
          simp only [next, except_ok_bind]
          split
          · rename_i opens
            subst opens
            exact parenthesised_sound toLowerCase inner rest (ends.tail nofun) shorter
          · exact refuses _ _
      | endOfInput => exact refuses _ _
      | ident v quoted =>
          cases quoted with
          | true =>
              exact named_sound toLowerCase inner v true nofun rest (ends.tail nofun) shorter
          | false =>
              exact unquotedWord_sound toLowerCase inner toUpperCase v rest (ends.tail nofun) shorter

/-! ## Operators -/

omit inner in
private theorem castSuffix_sound :
    SoundSuffixFor Token.endOfInput Fault.IsGrammarError (castSuffix toLowerCase)
      (CastTail toLowerCase) bound := by
  intro tokens ends _
  unfold castSuffix
  split
  · rename_i isCast
    obtain ⟨rest, rfl⟩ := (isOp_iff tokens "::").mp isCast
    refine (typeName_sound toLowerCase rest (ends.tail (op_ne_end _))).bind ?_
    rintro ⟨target, left⟩ ⟨leftEnds, used, _, rfl, typed⟩ found member
    obtain rfl := Option.some.inj member
    exact ⟨leftEnds, op "::" :: used, List.cons_ne_nil _ _, rfl, .cast typed⟩
  split
  · exact refuses _ _
  · exact nofun

private theorem unary_sound :
    SoundTo (unary toLowerCase toUpperCase expr) (Unary toLowerCase Inner) (bound + 1) :=
  prefixed_sound rfl
    (suffixed_sound (primary_sound toLowerCase inner toUpperCase) (castSuffix_sound toLowerCase))

omit inner in
private theorem leftAssociative_sound
    {operator : Token → Option (ScalarNode → ScalarNode → ScalarNode)}
    {operand : Parser ScalarNode} {Operand : Strings ScalarNode}
    (noEnd : operator .endOfInput = none) (sound : SoundTo operand Operand bound) :
    SoundTo (leftAssociative operator operand) (LeftAssociative operator Operand) bound :=
  suffixed_sound sound (infixSuffix_sound noEnd sound)

private theorem otherOp_sound :
    SoundTo (otherOp toLowerCase toUpperCase expr) (OtherOp toLowerCase Inner) (bound + 1) := by
  have power : SoundTo (power toLowerCase toUpperCase expr) (Power toLowerCase Inner) (bound + 1) :=
    leftAssociative_sound rfl (unary_sound toLowerCase inner toUpperCase)
  have multiplicative : SoundTo (multiplicative toLowerCase toUpperCase expr)
      (Multiplicative toLowerCase Inner) (bound + 1) := leftAssociative_sound rfl power
  have additive : SoundTo (additive toLowerCase toUpperCase expr) (Additive toLowerCase Inner)
      (bound + 1) := leftAssociative_sound rfl multiplicative
  exact leftAssociative_sound rfl additive

private theorem comparison_sound :
    SoundTo (comparison toLowerCase toUpperCase expr) (Comparison toLowerCase Inner)
      (bound + 1) := by
  have operand := otherOp_sound toLowerCase inner toUpperCase
  intro tokens ends short
  refine (operand tokens ends short).bind ?_
  rintro ⟨left, rest⟩ ⟨restEnds, used, nonempty, rfl, readLeft⟩
  dsimp only
  cases rest with
  | nil => exact absurd rfl restEnds.ne_nil
  | cons token rest =>
      cases known : comparisonOperator (peek (token :: rest) 0) with
      | none =>
          dsimp only
          split
          · exact refuses _ _
          · exact ⟨restEnds, used, nonempty, rfl, .operand readLeft⟩
      | some combine =>
          have notEnd : token ≠ .endOfInput := by
            rintro rfl
            cases known
          have shorter : rest.length ≤ bound + 1 := by
            simp only [List.length_append, List.length_cons] at short
            omega
          refine (operand rest (restEnds.tail notEnd) shorter).bind ?_
          rintro ⟨right, after⟩ ⟨afterEnds, usedRight, _, rfl, readRight⟩
          dsimp only
          split
          · exact refuses _ _
          · exact ⟨afterEnds, used ++ token :: usedRight, by simp, by simp,
              .compared readLeft known readRight⟩

omit inner in
private theorem isSuffix_sound :
    SoundSuffixFor Token.endOfInput Fault.IsGrammarError (isSuffix toLowerCase)
      (IsTail toLowerCase) bound := by
  intro tokens ends _
  unfold isSuffix
  split
  · rename_i known
    obtain ⟨token, rest, rfl, word⟩ := (isWord_iff toLowerCase tokens "isnull").mp known
    intro found member
    obtain rfl := Option.some.inj member
    exact ⟨ends.tail (isWord_ne_end _ _ _ word), [token], List.cons_ne_nil _ _, rfl, .isnull word⟩
  split
  · rename_i known
    obtain ⟨token, rest, rfl, word⟩ := (isWord_iff toLowerCase tokens "notnull").mp known
    intro found member
    obtain rfl := Option.some.inj member
    exact ⟨ends.tail (isWord_ne_end _ _ _ word), [token], List.cons_ne_nil _ _, rfl, .notnull word⟩
  split
  · rename_i known
    obtain ⟨is, rest, rfl, word⟩ := (isWord_iff toLowerCase tokens "is").mp known
    have restEnds := ends.tail (isWord_ne_end _ _ _ word)
    dsimp only [List.tail_cons]
    cases negated : isWord toLowerCase rest "not" with
    | false =>
        simp only [Bool.false_eq_true, if_false]
        split
        · rename_i nullKnown
          obtain ⟨null, after, rfl, nullWord⟩ := (isWord_iff toLowerCase rest "null").mp nullKnown
          intro found member
          obtain rfl := Option.some.inj member
          exact ⟨restEnds.tail (isWord_ne_end _ _ _ nullWord), [is, null], List.cons_ne_nil _ _,
            rfl, .isNull word nullWord⟩
        · exact refuses _ _
    | true =>
        obtain ⟨not, behind, rfl, notWord⟩ := (isWord_iff toLowerCase rest "not").mp negated
        have behindEnds := restEnds.tail (isWord_ne_end _ _ _ notWord)
        simp only [if_true, List.tail_cons]
        split
        · rename_i nullKnown
          obtain ⟨null, after, rfl, nullWord⟩ :=
            (isWord_iff toLowerCase behind "null").mp nullKnown
          intro found member
          obtain rfl := Option.some.inj member
          exact ⟨behindEnds.tail (isWord_ne_end _ _ _ nullWord), [is, not, null],
            List.cons_ne_nil _ _, rfl, .isNotNull word notWord nullWord⟩
        · exact refuses _ _
  · exact nofun

private theorem or_sound :
    SoundTo (or toLowerCase toUpperCase expr) (Or toLowerCase Inner) (bound + 1) := by
  have is : SoundTo (is toLowerCase toUpperCase expr) (Is toLowerCase Inner) (bound + 1) :=
    suffixed_sound (comparison_sound toLowerCase inner toUpperCase) (isSuffix_sound toLowerCase)
  have not : SoundTo (not toLowerCase toUpperCase expr) (Not toLowerCase Inner) (bound + 1) :=
    prefixed_sound rfl is
  have and : SoundTo (and toLowerCase toUpperCase expr) (And toLowerCase Inner) (bound + 1) :=
    leftAssociative_sound rfl not
  exact leftAssociative_sound rfl and

end

theorem expr_sound (toLowerCase toUpperCase : Text → Text) (depth : Nat) :
    SoundTo (expr toLowerCase toUpperCase depth) (ExpressionTo toLowerCase depth) depth := by
  induction depth with
  | zero =>
      intro tokens ends short
      exact absurd (List.length_eq_zero_iff.mp (Nat.le_zero.mp short)) ends.ne_nil
  | succ depth ih => exact or_sound toLowerCase ih toUpperCase

/-- The parser on the tokens of a text: a derivation of all of them, or a grammar error. -/
theorem parseAll_sound (toLowerCase toUpperCase : Text → Text) (tokens : List Token)
    (ends : Ended tokens) :
    VgiWorker.Outcome Fault.IsGrammarError
      (fun node => ∃ body, tokens = body ++ [.endOfInput] ∧ Expression toLowerCase body node)
      (parseAll toLowerCase toUpperCase tokens) := by
  refine (expr_sound toLowerCase toUpperCase tokens.length tokens ends le_rfl).bind ?_
  rintro ⟨node, rest⟩ ⟨restEnds, used, _, rfl, read⟩
  dsimp only
  obtain ⟨body, clean, rfl⟩ := restEnds
  cases body with
  | nil => exact ⟨used, rfl, _, read⟩
  | cons first body =>
      split
      · rename_i isEnd
        exact absurd (List.mem_cons.mpr (.inl isEnd.symm)) clean
      · exact refuses _ _

end VgiWorker.Catalog.Sql
