import VgiWorker.Data.Result

/-!
# Recursive descent

Parsers that read a string of a language from the front of the tokens that are
left: prefix operators, loops over suffixes, and what makes such a parser sound
and complete for the language its grammar gives.
-/

set_option autoImplicit false

namespace VgiWorker

/-! ## Outcomes -/

/-- A success that is good, or a failure that is a refusal. -/
def Outcome {Failure Value : Type} (refusal : Failure → Prop) (good : Value → Prop) :
    Except Failure Value → Prop
  | .ok value => good value
  | .error failure => refusal failure

section

variable {Failure Value Other : Type} {refusal : Failure → Prop}

theorem Outcome.bind {good : Value → Prop} {goal : Other → Prop} {step : Except Failure Value}
    {next : Value → Except Failure Other} (first : Outcome refusal good step)
    (later : ∀ value, good value → Outcome refusal goal (next value)) :
    Outcome refusal goal (step >>= next) := by
  cases step with
  | error failure => exact first
  | ok value => exact later value first

theorem Outcome.mono {good goal : Value → Prop} {step : Except Failure Value}
    (outcome : Outcome refusal good step) (weaker : ∀ value, good value → goal value) :
    Outcome refusal goal step := by
  cases step with
  | error failure => exact outcome
  | ok value => exact weaker value outcome

theorem Outcome.of_ok {good : Value → Prop} {step : Except Failure Value} {value : Value}
    (outcome : Outcome refusal good step) (success : step = .ok value) : good value := by
  subst success
  exact outcome

theorem Outcome.of_error {good : Value → Prop} {step : Except Failure Value} {failure : Failure}
    (outcome : Outcome refusal good step) (failed : step = .error failure) : refusal failure := by
  subst failed
  exact outcome

end

/-! ## Parsers and languages -/

/-- What is read from the front of the tokens, and the tokens that are left. -/
abbrev TokenParser (Token Failure Value : Type) : Type :=
  List Token → Except Failure (Value × List Token)

abbrev Language (Token Value : Type) : Type := List Token → Value → Prop

section

variable {Token Failure Node : Type}

/-- A suffix that follows a node: none, or what it makes of the node. -/
abbrev SuffixParser (Token Failure Node : Type) : Type :=
  List Token → Except Failure (Option ((Node → Node) × List Token))

/-- Suffixes as long as there are any; the loop gives up with `endless`. -/
def suffixesFrom (endless : Failure) (suffix : SuffixParser Token Failure Node) :
    Nat → Node → TokenParser Token Failure Node
  | 0, _, _ => .error endless
  | fuel + 1, node, tokens => do
      match ← suffix tokens with
      | none => .ok (node, tokens)
      | some (wrap, rest) => suffixesFrom endless suffix fuel (wrap node) rest

def suffixed (endless : Failure) (first : TokenParser Token Failure Node)
    (suffix : SuffixParser Token Failure Node) : TokenParser Token Failure Node :=
  fun tokens => do
    let (node, rest) ← first tokens
    suffixesFrom endless suffix (rest.length + 1) node rest

/-- The suffixes of a left-associative level: an operator and its right operand. -/
def infixSuffix (operator : Token → Option (Node → Node → Node))
    (operand : TokenParser Token Failure Node) : SuffixParser Token Failure Node
  | [] => .ok none
  | token :: rest =>
      match operator token with
      | none => .ok none
      | some combine => do
          let (right, rest) ← operand rest
          .ok (some (fun left => combine left right, rest))

/-- Prefix operators, and then the operand. -/
def prefixed (operator : Token → Option (Node → Node)) (operand : TokenParser Token Failure Node) :
    TokenParser Token Failure Node
  | [] => operand []
  | token :: rest =>
      match operator token with
      | none => operand (token :: rest)
      | some wrap => do
          let (node, rest) ← prefixed operator operand rest
          .ok (wrap node, rest)

end

/-! ## Languages of the combinators -/

section

variable {Token Failure Node : Type}

/-- A string of `First`, and behind it strings that each wrap what stands before them. -/
inductive Suffixed (First : Language Token Node) (Tail : Language Token (Node → Node)) :
    Language Token Node where
  | first {used : List Token} {node : Node} (read : First used node) :
      Suffixed First Tail used node
  | more {start tail : List Token} {node : Node} {wrap : Node → Node}
      (before : Suffixed First Tail start node) (suffix : Tail tail wrap) :
      Suffixed First Tail (start ++ tail) (wrap node)

/-- An operator and its right operand. -/
inductive Infix (operator : Token → Option (Node → Node → Node)) (Operand : Language Token Node) :
    Language Token (Node → Node) where
  | operand {token : Token} {combine : Node → Node → Node} {used : List Token} {right : Node}
      (known : operator token = some combine) (read : Operand used right) :
      Infix operator Operand (token :: used) fun left => combine left right

/-- Operators in front of a string of `Operand`. -/
inductive Prefixed (operator : Token → Option (Node → Node)) (Operand : Language Token Node) :
    Language Token Node where
  | operand {used : List Token} {node : Node} (read : Operand used node) :
      Prefixed operator Operand used node
  | more {token : Token} {wrap : Node → Node} {used : List Token} {node : Node}
      (known : operator token = some wrap) (rest : Prefixed operator Operand used node) :
      Prefixed operator Operand (token :: used) (wrap node)

end

/-! ## Soundness -/

/-- The last token stands behind the others, and nowhere among them. -/
def EndsWith {Token : Type} (last : Token) (tokens : List Token) : Prop :=
  ∃ body, last ∉ body ∧ tokens = body ++ [last]

section

variable {Token Failure Value Node : Type} {last : Token} {refusal : Failure → Prop}

theorem EndsWith.tail {token : Token} {rest : List Token} (ends : EndsWith last (token :: rest))
    (notLast : token ≠ last) : EndsWith last rest := by
  obtain ⟨body, clean, same⟩ := ends
  cases body with
  | nil =>
      rw [List.nil_append, List.cons.injEq] at same
      exact absurd same.1 notLast
  | cons first body =>
      rw [List.cons_append, List.cons.injEq] at same
      exact ⟨body, fun member => clean (List.mem_cons_of_mem _ member), same.2⟩

theorem EndsWith.ne_nil {tokens : List Token} (ends : EndsWith last tokens) : tokens ≠ [] := by
  obtain ⟨body, _, rfl⟩ := ends
  simp

variable (last) in
/-- A string of the language is gone from the front, the last token is not. -/
def Reads (language : Language Token Value) (tokens : List Token) (read : Value × List Token) :
    Prop :=
  EndsWith last read.2 ∧ ∃ used, tokens = used ++ read.2 ∧ language used read.1

variable (last) in
/-- The string read is not empty. -/
def Leaves (language : Language Token Value) (tokens : List Token) (read : Value × List Token) :
    Prop :=
  EndsWith last read.2 ∧ ∃ used, used ≠ [] ∧ tokens = used ++ read.2 ∧ language used read.1

variable (last refusal) in
/-- On tokens up to this length, the parser reads a string of the language or refuses. -/
def SoundFor (parser : TokenParser Token Failure Value) (language : Language Token Value)
    (bound : Nat) : Prop :=
  ∀ tokens, EndsWith last tokens → tokens.length ≤ bound →
    Outcome refusal (Leaves last language tokens) (parser tokens)

variable (last refusal) in
def SoundSuffixFor (suffix : SuffixParser Token Failure Node) (Tail : Language Token (Node → Node))
    (bound : Nat) : Prop :=
  ∀ tokens, EndsWith last tokens → tokens.length ≤ bound →
    Outcome refusal (fun found => ∀ read ∈ found, Leaves last Tail tokens read) (suffix tokens)

theorem SoundFor.mono {parser : TokenParser Token Failure Value} {language : Language Token Value}
    {bound smaller : Nat} (sound : SoundFor last refusal parser language bound)
    (less : smaller ≤ bound) : SoundFor last refusal parser language smaller :=
  fun tokens ends short => sound tokens ends (Nat.le_trans short less)

private theorem leaves_shorter {language : Language Token Value} {tokens rest : List Token}
    {value : Value} (leaves : Leaves last language tokens (value, rest)) :
    rest.length < tokens.length := by
  obtain ⟨_, used, nonempty, same, _⟩ := leaves
  have long := List.length_pos_of_ne_nil nonempty
  simp only [same, List.length_append]
  omega

private theorem suffixesFrom_sound {endless : Failure} {suffix : SuffixParser Token Failure Node}
    {First : Language Token Node} {Tail : Language Token (Node → Node)} {bound : Nat}
    (suffixSound : SoundSuffixFor last refusal suffix Tail bound) (fuel : Nat) (node : Node)
    (start tokens : List Token) (read : Suffixed First Tail start node)
    (ends : EndsWith last tokens) (short : tokens.length ≤ bound)
    (enough : tokens.length < fuel) :
    Outcome refusal
      (fun left => EndsWith last left.2 ∧
        ∃ used, tokens = used ++ left.2 ∧ Suffixed First Tail (start ++ used) left.1)
      (suffixesFrom endless suffix fuel node tokens) := by
  induction fuel generalizing node start tokens with
  | zero => exact absurd enough (Nat.not_lt_zero _)
  | succ fuel ih =>
      refine (suffixSound tokens ends short).bind ?_
      intro found sound
      cases found with
      | none => exact ⟨ends, [], rfl, by rwa [List.append_nil]⟩
      | some both =>
          obtain ⟨wrap, rest⟩ := both
          have leaves := sound _ rfl
          have shorter := leaves_shorter leaves
          obtain ⟨restEnds, tail, _, rfl, tailRead⟩ := leaves
          refine (ih (wrap node) (start ++ tail) rest (.more read tailRead) restEnds
            (Nat.le_trans (Nat.le_of_lt shorter) short) (by omega)).mono ?_
          rintro ⟨result, left⟩ ⟨leftEnds, used, rfl, whole⟩
          exact ⟨leftEnds, tail ++ used, by simp, by rwa [← List.append_assoc]⟩

theorem suffixed_sound {endless : Failure} {first : TokenParser Token Failure Node}
    {suffix : SuffixParser Token Failure Node} {First : Language Token Node}
    {Tail : Language Token (Node → Node)} {bound : Nat}
    (firstSound : SoundFor last refusal first First bound)
    (suffixSound : SoundSuffixFor last refusal suffix Tail bound) :
    SoundFor last refusal (suffixed endless first suffix) (Suffixed First Tail) bound := by
  intro tokens ends short
  refine (firstSound tokens ends short).bind ?_
  rintro ⟨node, rest⟩ leaves
  have shorter := leaves_shorter leaves
  obtain ⟨restEnds, start, nonempty, rfl, read⟩ := leaves
  refine (suffixesFrom_sound suffixSound _ node start rest (.first read) restEnds
    (Nat.le_trans (Nat.le_of_lt shorter) short) (Nat.lt_succ_self _)).mono ?_
  rintro ⟨result, left⟩ ⟨leftEnds, used, rfl, whole⟩
  exact ⟨leftEnds, start ++ used, by simp [nonempty], by simp, whole⟩

theorem infixSuffix_sound {operator : Token → Option (Node → Node → Node)}
    {operand : TokenParser Token Failure Node} {Operand : Language Token Node} {bound : Nat}
    (noLast : operator last = none) (operandSound : SoundFor last refusal operand Operand bound) :
    SoundSuffixFor last refusal (infixSuffix operator operand) (Infix operator Operand) bound := by
  intro tokens ends short
  cases tokens with
  | nil => exact absurd rfl ends.ne_nil
  | cons token rest =>
      unfold infixSuffix
      dsimp only
      cases known : operator token with
      | none => exact nofun
      | some combine =>
          have notLast : token ≠ last := by
            rintro rfl
            rw [noLast] at known
            cases known
          refine (operandSound rest (ends.tail notLast) (Nat.le_trans (Nat.le_succ _) short)).bind ?_
          rintro ⟨right, left⟩ ⟨leftEnds, used, nonempty, rfl, read⟩ found member
          obtain rfl := Option.some.inj member
          exact ⟨leftEnds, token :: used, List.cons_ne_nil _ _, rfl, .operand known read⟩

theorem prefixed_sound {operator : Token → Option (Node → Node)}
    {operand : TokenParser Token Failure Node} {Operand : Language Token Node} {bound : Nat}
    (noLast : operator last = none) (operandSound : SoundFor last refusal operand Operand bound) :
    SoundFor last refusal (prefixed operator operand) (Prefixed operator Operand) bound := by
  intro tokens ends short
  induction tokens with
  | nil => exact absurd rfl ends.ne_nil
  | cons token rest ih =>
      unfold prefixed
      cases known : operator token with
      | none =>
          refine (operandSound _ ends short).mono ?_
          rintro ⟨node, left⟩ ⟨leftEnds, used, nonempty, same, read⟩
          exact ⟨leftEnds, used, nonempty, same, .operand read⟩
      | some wrap =>
          have notLast : token ≠ last := by
            rintro rfl
            rw [noLast] at known
            cases known
          refine (ih (ends.tail notLast) (Nat.le_trans (Nat.le_succ _) short)).bind ?_
          rintro ⟨node, left⟩ ⟨leftEnds, used, nonempty, rfl, read⟩
          exact ⟨leftEnds, token :: used, List.cons_ne_nil _ _, rfl, .more known read⟩

end

/-! ## Completeness -/

section

variable {Token Failure Value Node : Type}

/-- The parser reads every string of the language up to this length, wherever a token of `follows`
stands behind it. -/
def CompleteFor (parser : TokenParser Token Failure Value) (language : Language Token Value)
    (follows : Token → Prop) (bound : Nat) : Prop :=
  ∀ used value next rest, language used value → used.length ≤ bound → follows next →
    parser (used ++ next :: rest) = .ok (value, next :: rest)

def CompleteSuffixFor (suffix : SuffixParser Token Failure Node)
    (Tail : Language Token (Node → Node)) (follows : Token → Prop) (bound : Nat) : Prop :=
  ∀ used wrap next rest, Tail used wrap → used.length ≤ bound → follows next →
    suffix (used ++ next :: rest) = .ok (some (wrap, next :: rest))

/-- Every string of the language starts with a token of this kind. -/
def Heads (kind : Token → Prop) (language : Language Token Value) : Prop :=
  ∀ used value, language used value → ∃ head rest, used = head :: rest ∧ kind head

theorem Heads.mono {kind wider : Token → Prop} {language : Language Token Value}
    (heads : Heads kind language) (weaker : ∀ token, kind token → wider token) :
    Heads wider language := by
  intro used value read
  obtain ⟨head, rest, same, known⟩ := heads used value read
  exact ⟨head, rest, same, weaker head known⟩

theorem Heads.suffixed {kind : Token → Prop} {First : Language Token Node}
    {Tail : Language Token (Node → Node)} (heads : Heads kind First) :
    Heads kind (Suffixed First Tail) := by
  intro used node read
  induction read with
  | first read => exact heads _ _ read
  | more before suffix ih =>
      obtain ⟨head, rest, rfl, known⟩ := ih
      exact ⟨head, rest ++ _, rfl, known⟩

theorem Heads.prefixed {kind : Token → Prop} {operator : Token → Option (Node → Node)}
    {Operand : Language Token Node} (heads : Heads kind Operand)
    (operators : ∀ token wrap, operator token = some wrap → kind token) :
    Heads kind (Prefixed operator Operand) := by
  intro used node read
  cases read with
  | operand read => exact heads _ _ read
  | more known rest => exact ⟨_, _, rfl, operators _ _ known⟩

theorem Heads.infix {operator : Token → Option (Node → Node → Node)}
    {Operand : Language Token Node} :
    Heads (fun token => operator token ≠ none) (Infix operator Operand) := by
  intro used wrap read
  cases read with
  | operand known read => exact ⟨_, _, rfl, by simp [known]⟩

theorem infixSuffix_complete {operator : Token → Option (Node → Node → Node)}
    {operand : TokenParser Token Failure Node} {Operand : Language Token Node}
    {follows : Token → Prop} {bound : Nat}
    (complete : CompleteFor operand Operand follows bound) :
    CompleteSuffixFor (infixSuffix operator operand) (Infix operator Operand) follows bound := by
  intro used wrap next rest read short followed
  cases read with
  | operand known read =>
      have operandRead := complete _ _ next rest read (Nat.le_trans (Nat.le_succ _) short) followed
      simp [infixSuffix, known, operandRead]

theorem infixSuffix_stops {operator : Token → Option (Node → Node → Node)}
    {operand : TokenParser Token Failure Node} (next : Token) (rest : List Token)
    (stops : operator next = none) : infixSuffix operator operand (next :: rest) = .ok none := by
  simp [infixSuffix, stops]

private theorem suffixed_reaches {endless : Failure} {first : TokenParser Token Failure Node}
    {suffix : SuffixParser Token Failure Node} {First : Language Token Node}
    {Tail : Language Token (Node → Node)} {inner : Token → Prop} {bound : Nat}
    (firstComplete : CompleteFor first First inner bound)
    (suffixComplete : CompleteSuffixFor suffix Tail inner bound) (starts : Heads inner Tail)
    (used : List Token) (node : Node) (read : Suffixed First Tail used node) (next : Token)
    (rest : List Token) (short : used.length ≤ bound) (followed : inner next) :
    ∃ fuel, (next :: rest).length < fuel ∧
      suffixed endless first suffix (used ++ next :: rest) =
        suffixesFrom endless suffix fuel node (next :: rest) := by
  induction read generalizing next rest with
  | first read =>
      refine ⟨_, Nat.lt_succ_self _, ?_⟩
      unfold suffixed
      rw [firstComplete _ _ next rest read short followed]
      rfl
  | @more start tail node wrap before suffixRead ih =>
      obtain ⟨head, others, rfl, headStarts⟩ := starts _ _ suffixRead
      rw [List.length_append] at short
      obtain ⟨fuel, enough, reached⟩ := ih head (others ++ next :: rest) (by omega) headStarts
      cases fuel with
      | zero => exact absurd enough (Nat.not_lt_zero _)
      | succ fuel =>
          refine ⟨fuel, ?_, ?_⟩
          · simp only [List.length_cons, List.length_append] at enough ⊢
            omega
          · rw [List.append_assoc, List.cons_append, reached, suffixesFrom]
            have suffixStep := suffixComplete _ _ next rest suffixRead (by omega) followed
            rw [List.cons_append] at suffixStep
            rw [suffixStep]
            rfl

/-- A loop over suffixes is complete where `follows` holds, when its parts are wherever `inner`
does: what starts a suffix is of `inner`, and what is of `follows` starts none. -/
theorem suffixed_complete {endless : Failure} {first : TokenParser Token Failure Node}
    {suffix : SuffixParser Token Failure Node} {First : Language Token Node}
    {Tail : Language Token (Node → Node)} {inner follows : Token → Prop} {bound : Nat}
    (firstComplete : CompleteFor first First inner bound)
    (suffixComplete : CompleteSuffixFor suffix Tail inner bound) (starts : Heads inner Tail)
    (weaker : ∀ next, follows next → inner next)
    (stops : ∀ next rest, follows next → suffix (next :: rest) = .ok none) :
    CompleteFor (suffixed endless first suffix) (Suffixed First Tail) follows bound := by
  intro used node next rest read short followed
  obtain ⟨fuel, enough, reached⟩ := suffixed_reaches firstComplete suffixComplete starts used node
    read next rest short (weaker next followed)
  rw [reached]
  cases fuel with
  | zero => exact absurd enough (Nat.not_lt_zero _)
  | succ fuel =>
      rw [suffixesFrom, stops next rest followed]
      rfl

theorem prefixed_complete {operator : Token → Option (Node → Node)}
    {operand : TokenParser Token Failure Node} {Operand : Language Token Node}
    {follows : Token → Prop} {bound : Nat}
    (complete : CompleteFor operand Operand follows bound)
    (heads : Heads (fun token => operator token = none) Operand) :
    CompleteFor (prefixed operator operand) (Prefixed operator Operand) follows bound := by
  intro used node next rest read short followed
  induction read with
  | @operand used node read =>
      have operandRead := complete _ _ next rest read short followed
      obtain ⟨head, others, rfl, notOperator⟩ := heads _ _ read
      rw [List.cons_append] at operandRead ⊢
      simpa [prefixed, notOperator] using operandRead
  | more known _ ih =>
      have later := ih (Nat.le_trans (Nat.le_succ _) short)
      simp [prefixed, known, later]

end

end VgiWorker
