import VgiWorker.Js.JsonReader

/-!
# Column tags

The check of the reserved column metadata: a comment is text without unpaired surrogates, and tags
are a JSON object of strings, scanned by hand. What is left to scan stands for the position.
-/

set_option autoImplicit false

namespace VgiWorker.Catalog.ColumnTags

open VgiWorker.Js

/-- The messages, but for that of `JSON.parse`; the scan's fuel is the model's own. -/
inductive Fault where
  | message (message : Text)
  | jsonParse
  | outOfFuel

def unpairedSurrogate : Fault :=
  .message (text "column metadata contains an unpaired surrogate")

def scalarText : Text → Except Fault Unit
  | [] => .ok ()
  | unit :: rest =>
      if isHighSurrogate unit then
        match rest with
        | low :: rest => if isLowSurrogate low then scalarText rest else .error unpairedSurrogate
        | [] => .error unpairedSurrogate
      else if isLowSurrogate unit then .error unpairedSurrogate
      else scalarText rest

/-- `ws`. -/
def skipSpace (source : Text) : Text :=
  source.dropWhile isJsonSpace

/-- Up to the closing quote, an escape and the unit behind it skipped, and the rest. -/
def stringEnd : Text → Option (Text × Text)
  | [] => none
  | 92 :: escaped :: rest => (stringEnd rest).map fun found => (92 :: escaped :: found.1, found.2)
  | 34 :: rest => some ([34], rest)
  | unit :: rest => (stringEnd rest).map fun found => (unit :: found.1, found.2)

/-- `str`, with what is left behind the string. -/
def str (source : Text) : Except Fault (Text × Text) :=
  match skipSpace source with
  | 34 :: rest =>
      match stringEnd rest with
      | some (taken, after) =>
          match parseStringToken? (34 :: taken) with
          | some value => do
              scalarText value
              .ok (value, after)
          | none => .error .jsonParse
      | none => .error (.message (text "unterminated column tag string"))
  | _ => .error (.message (text "column tags require string keys and values"))

def invalidJson : Fault :=
  .message (text "invalid column tags JSON")

/-- The loop over the members, up to the unit that is no comma. -/
def members : Nat → Text → List Text → Except Fault Text
  | 0, _, _ => .error .outOfFuel
  | fuel + 1, source, seen => do
      let (key, afterKey) ← str source
      if key ∈ seen then .error (.message (text "duplicate column tag key"))
      else
        match skipSpace afterKey with
        | 58 :: afterColon => do
            let (_, afterValue) ← str afterColon
            match skipSpace afterValue with
            | 44 :: next => members fuel next (key :: seen)
            | other => .ok other
        | _ => .error invalidJson

/-- Behind the last member. -/
def closing (source : Text) : Except Fault Unit :=
  match source with
  | 125 :: rest =>
      if skipSpace rest = [] then .ok ()
      else .error (.message (text "trailing column tags JSON"))
  | _ => .error invalidJson

def tagsWithin (fuel : Nat) (value : Text) : Except Fault Unit :=
  match skipSpace value with
  | 123 :: inside =>
      if (skipSpace inside).head? = some 125 then closing (skipSpace inside)
      else do
        let rest ← members fuel (skipSpace inside) []
        closing rest
  | _ => .error (.message (text "column tags must be a JSON object"))

def tags (value : Text) : Except Fault Unit :=
  tagsWithin (value.length + 1) value

def entry (key value : Text) : Except Fault Unit :=
  if key = text "comment" then scalarText value
  else if key = text "tags" then do
    scalarText value
    tags value
  else .ok ()

/-! ## Surrogates -/

/-- A surrogate that no pair takes up is replaced. -/
private theorem not_isWellFormed_lone (unit : CodeUnit) (rest : Text)
    (surrogate : (isHighSurrogate unit || isLowSurrogate unit) = true)
    (lone : ∀ low ∈ rest.head?, (isHighSurrogate unit && isLowSurrogate low) = false) :
    ¬ IsWellFormed (unit :: rest) := by
  have replaced : toWellFormed (unit :: rest) = 0xfffd :: toWellFormed rest := by
    have scalars : toScalars (unit :: rest) = Char.ofNat 0xfffd :: toScalars rest := by
      cases rest with
      | nil => simp [toScalars, scalarOfUnit, surrogate]
      | cons low rest => simp [toScalars, scalarOfUnit, surrogate, lone low rfl]
    rw [toWellFormed, scalars]
    rfl
  intro formed
  rw [IsWellFormed, replaced] at formed
  obtain rfl := (List.cons.inj formed).1
  cases surrogate

theorem scalarText_ok_iff (value : Text) : scalarText value = .ok () ↔ IsWellFormed value := by
  fun_induction scalarText value with
  | case1 => exact iff_of_true rfl rfl
  | case2 unit high low rest isLow ih =>
      rw [ih, IsWellFormed, IsWellFormed, toWellFormed_cons_pair unit low rest (by simp [high, isLow])]
      simp
  | case3 unit high low rest notLow =>
      exact iff_of_false (by simp) (not_isWellFormed_lone unit _ (by simp [high]) (by simp_all))
  | case4 unit high =>
      exact iff_of_false (by simp) (not_isWellFormed_lone unit [] (by simp [high]) (by simp))
  | case5 unit rest notHigh isLow =>
      exact iff_of_false (by simp)
        (not_isWellFormed_lone unit rest (by simp [isLow]) (by simp [notHigh]))
  | case6 unit rest notHigh notLow ih =>
      rw [ih, IsWellFormed, IsWellFormed, toWellFormed_cons_single unit rest
        (eq_false_of_ne_true notHigh) (eq_false_of_ne_true notLow)]
      simp

/-! ## Tokens -/

private theorem space_skipSpace (source : Text) :
    JsonGrammar.Space isJsonSpace source (skipSpace source) := by
  induction source with
  | nil => exact .done []
  | cons unit rest ih =>
      unfold skipSpace
      by_cases space : isJsonSpace unit = true
      · rw [List.dropWhile_cons_of_pos space]
        exact .step unit rest _ space ih
      · rw [List.dropWhile_cons_of_neg space]
        exact .done (unit :: rest)

/-- A rest that starts with no space, or is empty. -/
private def Stops (rest : Text) : Prop :=
  ∀ unit ∈ rest.head?, isJsonSpace unit = false

private theorem skipSpace_of_space (source rest : Text)
    (space : JsonGrammar.Space isJsonSpace source rest) (stops : Stops rest) :
    skipSpace source = rest := by
  induction space with
  | done rest =>
      cases rest with
      | nil => rfl
      | cons unit rest => exact List.dropWhile_cons_of_neg (by simp [stops unit rfl])
  | step unit source rest isSpace _ ih =>
      rw [skipSpace, List.dropWhile_cons_of_pos isSpace]
      exact ih stops

private theorem length_skipSpace (source : Text) : (skipSpace source).length ≤ source.length :=
  JsonGrammar.length_space _ _ (space_skipSpace source)

private theorem stringEnd_split (source taken after : Text)
    (found : stringEnd source = some (taken, after)) :
    ∃ inner, taken = inner ++ [34] ∧ source = inner ++ 34 :: after := by
  fun_induction stringEnd source generalizing taken with
  | case1 => cases found
  | case2 escaped rest ih =>
      obtain ⟨⟨others, behind⟩, later, same⟩ := Option.map_eq_some_iff.mp found
      cases same
      obtain ⟨inner, rfl, rfl⟩ := ih others later
      exact ⟨92 :: escaped :: inner, rfl, rfl⟩
  | case3 rest =>
      cases found
      exact ⟨[], rfl, rfl⟩
  | case4 unit rest _ _ ih =>
      obtain ⟨⟨others, behind⟩, later, same⟩ := Option.map_eq_some_iff.mp found
      cases same
      obtain ⟨inner, rfl, rfl⟩ := ih others later
      exact ⟨unit :: inner, rfl, rfl⟩

private theorem stringEnd_plain (unit : CodeUnit) (rest : Text) (notQuote : unit ≠ 34)
    (notEscape : unit ≠ 92) :
    stringEnd (unit :: rest) = (stringEnd rest).map fun found => (unit :: found.1, found.2) := by
  rw [stringEnd]
  · exact fun _ _ same _ => notEscape same
  · exact notQuote

/-- The scan for the closing quote ends where the token does. -/
private theorem stringEnd_of_unescape (inner value rest : Text)
    (unescaped : unescape? inner = some value) :
    stringEnd (inner ++ 34 :: rest) = some (inner ++ [34], rest) := by
  fun_induction unescape? inner generalizing value with
  | case1 => rfl
  | case2 a b c d others ih =>
      obtain ⟨high, isHigh, unescaped⟩ := Option.bind_eq_some_iff.mp unescaped
      obtain ⟨second, isSecond, unescaped⟩ := Option.bind_eq_some_iff.mp unescaped
      obtain ⟨third, isThird, unescaped⟩ := Option.bind_eq_some_iff.mp unescaped
      obtain ⟨low, isLow, unescaped⟩ := Option.bind_eq_some_iff.mp unescaped
      obtain ⟨tail, isTail, _⟩ := Option.bind_eq_some_iff.mp unescaped
      obtain ⟨_, aQuote, aSlash⟩ := hexValue_plain a high isHigh
      obtain ⟨_, bQuote, bSlash⟩ := hexValue_plain b second isSecond
      obtain ⟨_, cQuote, cSlash⟩ := hexValue_plain c third isThird
      obtain ⟨_, dQuote, dSlash⟩ := hexValue_plain d low isLow
      simp only [List.cons_append]
      rw [stringEnd, stringEnd_plain a _ aQuote aSlash, stringEnd_plain b _ bQuote bSlash,
        stringEnd_plain c _ cQuote cSlash, stringEnd_plain d _ dQuote dSlash, ih tail isTail]
      rfl
  | case3 letter others _ ih =>
      obtain ⟨unit, isUnit, unescaped⟩ := Option.bind_eq_some_iff.mp unescaped
      obtain ⟨tail, isTail, _⟩ := Option.bind_eq_some_iff.mp unescaped
      simp only [List.cons_append]
      rw [stringEnd, ih tail isTail]
      rfl
  | case4 => cases unescaped
  | case5 unit others _ _ plain ih =>
      obtain ⟨tail, isTail, _⟩ := Option.bind_eq_some_iff.mp unescaped
      rw [List.cons_append, stringEnd_plain unit _ (fun quote => plain (.inr (.inl quote)))
        (fun slash => plain (.inr (.inr slash))), ih tail isTail]
      rfl

/-- A string in front, with what is left behind it. -/
private theorem str_ok_iff (source value after : Text) :
    str source = .ok (value, after) ↔
      ∃ start, JsonGrammar.Space isJsonSpace source (34 :: start) ∧
        JsonGrammar.Characters value start after ∧ IsWellFormed value := by
  constructor
  · intro read
    unfold str at read
    split at read
    · rename_i start isStart
      split at read
      · rename_i taken rest found
        obtain ⟨inner, rfl, rfl⟩ := stringEnd_split start taken rest found
        rw [parseStringToken_inner] at read
        split at read
        · rename_i decoded unescaped
          obtain ⟨_, formed, same⟩ := except_bind_ok _ _ _ read
          cases same
          exact ⟨_, isStart ▸ space_skipSpace source,
            characters_of_unescape value inner after unescaped, (scalarText_ok_iff value).mp formed⟩
        · cases read
      · cases read
    · cases read
  · rintro ⟨start, space, characters, formed⟩
    have isStart := skipSpace_of_space source (34 :: start) space (by simp [Stops, isJsonSpace])
    obtain ⟨inner, rfl, unescaped, _⟩ := unescape_of_characters value start after characters
    unfold str
    simp only [isStart, stringEnd_of_unescape inner value after unescaped, parseStringToken_inner,
      unescaped, (scalarText_ok_iff value).mpr formed]
    rfl

private theorem length_str (source value after : Text) (read : str source = .ok (value, after)) :
    after.length < source.length := by
  obtain ⟨start, space, characters, _⟩ := (str_ok_iff source value after).mp read
  have spaces := JsonGrammar.length_space _ _ space
  have units := JsonGrammar.length_characters value start after characters
  rw [List.length_cons] at spaces
  omega

/-! ## Members -/

/-- The members of an object of strings. -/
def strings (pairs : List (Text × Text)) : List (Text × JsonTree) :=
  pairs.map fun pair => (pair.1, .string pair.2)

/-- One step of the loop: a name, a colon and a string. -/
private theorem members_step (fuel : Nat) (source rest : Text) (seen : List Text)
    (read : members (fuel + 1) source seen = .ok rest) :
    ∃ key afterKey afterColon value afterValue, str source = .ok (key, afterKey) ∧ key ∉ seen ∧
      skipSpace afterKey = 58 :: afterColon ∧ str afterColon = .ok (value, afterValue) ∧
      ((∃ next, skipSpace afterValue = 44 :: next ∧ members fuel next (key :: seen) = .ok rest) ∨
        skipSpace afterValue = rest) := by
  rw [members] at read
  obtain ⟨⟨key, afterKey⟩, isKey, read⟩ := except_bind_ok _ _ _ read
  dsimp only at read
  split at read
  · cases read
  · rename_i unseen
    split at read
    · rename_i afterColon isColon
      obtain ⟨⟨value, afterValue⟩, isValue, read⟩ := except_bind_ok _ _ _ read
      refine ⟨key, afterKey, afterColon, value, afterValue, isKey, unseen, isColon, isValue, ?_⟩
      dsimp only at read
      split at read
      · rename_i next isComma
        exact .inl ⟨next, isComma, read⟩
      · cases read
        exact .inr rfl
    · cases read

theorem members_sound (fuel : Nat) (source rest : Text) (seen : List Text)
    (read : members fuel source seen = .ok rest) :
    ∃ pairs, JsonGrammar.Members isJsonSpace (strings pairs) source rest ∧
      (pairs.map Prod.fst).Nodup ∧
      ∀ pair ∈ pairs, pair.1 ∉ seen ∧ IsWellFormed pair.1 ∧ IsWellFormed pair.2 := by
  induction fuel generalizing source seen with
  | zero => cases read
  | succ fuel ih =>
      obtain ⟨key, afterKey, afterColon, value, afterValue, isKey, unseen, isColon, isValue, next⟩ :=
        members_step fuel source rest seen read
      obtain ⟨start, before, name, keyFormed⟩ := (str_ok_iff source key afterKey).mp isKey
      obtain ⟨inside, beforeValue, characters, valueFormed⟩ :=
        (str_ok_iff afterColon value afterValue).mp isValue
      have colon := isColon ▸ space_skipSpace afterKey
      have spaced := JsonGrammar.Spaced.mk (.string value) afterColon _ afterValue _ beforeValue
        (.string value inside afterValue characters) (space_skipSpace afterValue)
      rcases next with ⟨between, isComma, more⟩ | isRest
      · obtain ⟨pairs, each, distinct, fresh⟩ := ih between (key :: seen) more
        rw [isComma] at spaced
        refine ⟨(key, value) :: pairs,
          .more key _ _ source start afterKey afterColon between rest before name colon spaced each,
          ?_, ?_⟩
        · refine List.nodup_cons.mpr ⟨fun again => ?_, distinct⟩
          obtain ⟨pair, member, same⟩ := List.mem_map.mp again
          exact (fresh pair member).1 (by simp [same])
        · refine List.forall_mem_cons.mpr ⟨⟨unseen, keyFormed, valueFormed⟩, fun pair member => ?_⟩
          obtain ⟨new, formed⟩ := fresh pair member
          exact ⟨fun old => new (List.mem_cons_of_mem _ old), formed⟩
      · rw [isRest] at spaced
        exact ⟨[(key, value)],
          .last key _ source start afterKey afterColon rest before name colon spaced, by simp,
          List.forall_mem_cons.mpr ⟨⟨unseen, keyFormed, valueFormed⟩, nofun⟩⟩

/-- The string of a member, between the colon and what follows. -/
private theorem str_of_spaced (value source rest : Text)
    (spaced : JsonGrammar.Spaced isJsonSpace (.string value) source rest)
    (formed : IsWellFormed value) (stops : Stops rest) :
    ∃ after, str source = .ok (value, after) ∧ skipSpace after = rest := by
  cases spaced with
  | mk _ _ start after _ before token behind =>
      cases token with
      | string _ inside _ characters =>
          exact ⟨after, (str_ok_iff source value after).mpr ⟨inside, before, characters, formed⟩,
            skipSpace_of_space after rest behind stops⟩

theorem members_complete (pairs : List (Text × Text)) (fuel : Nat) (source rest : Text)
    (seen : List Text) (enough : source.length < fuel)
    (each : JsonGrammar.Members isJsonSpace (strings pairs) source (125 :: rest))
    (distinct : (pairs.map Prod.fst).Nodup)
    (fresh : ∀ pair ∈ pairs, pair.1 ∉ seen ∧ IsWellFormed pair.1 ∧ IsWellFormed pair.2) :
    members fuel source seen = .ok (125 :: rest) := by
  induction pairs generalizing fuel source seen with
  | nil => cases each
  | cons pair others ih =>
      obtain ⟨key, value⟩ := pair
      obtain ⟨⟨unseen, keyFormed, valueFormed⟩, later⟩ := List.forall_mem_cons.mp fresh
      obtain ⟨new, distinct⟩ := List.nodup_cons.mp distinct
      obtain ⟨fuel, rfl⟩ := Nat.exists_eq_succ_of_ne_zero (Nat.ne_of_gt (Nat.zero_lt_of_lt enough))
      have colonStops : ∀ text, Stops (58 :: text) := by simp [Stops, isJsonSpace]
      generalize isMembers : strings ((key, value) :: others) = listed at each
      cases each with
      | last name tree _ start afterName afterColon _ before isName colon spaced =>
          obtain ⟨⟨rfl, rfl⟩, none⟩ : (key = name ∧ .string value = tree) ∧ strings others = [] := by
            simpa [strings] using isMembers
          obtain ⟨after, isValue, isRest⟩ :=
            str_of_spaced value afterColon _ spaced valueFormed (by simp [Stops, isJsonSpace])
          have isKey := (str_ok_iff source key afterName).mpr ⟨start, before, isName, keyFormed⟩
          simp [members, isKey, unseen, skipSpace_of_space _ _ colon (colonStops _), isValue, isRest]
      | more name tree _ _ start afterName afterColon between _ before isName colon spaced more =>
          obtain ⟨⟨rfl, rfl⟩, rfl⟩ : (key = name ∧ .string value = tree) ∧ strings others = _ := by
            simpa [strings] using isMembers
          obtain ⟨after, isValue, isComma⟩ :=
            str_of_spaced value afterColon _ spaced valueFormed (by simp [Stops, isJsonSpace])
          have isKey := (str_ok_iff source key afterName).mpr ⟨start, before, isName, keyFormed⟩
          have shorter : between.length < fuel := by
            have first := length_str source key afterName isKey
            have second := JsonGrammar.length_space _ _ colon
            have third := length_str afterColon value after isValue
            have fourth := length_skipSpace after
            rw [isComma] at fourth
            rw [List.length_cons] at second fourth
            omega
          have rest := ih fuel between (key :: seen) shorter more distinct fun pair member =>
            ⟨fun old => (List.mem_cons.mp old).elim
              (fun same => new (List.mem_map.mpr ⟨pair, member, same⟩)) (later pair member).1,
              (later pair member).2⟩
          simp [members, isKey, unseen, skipSpace_of_space _ _ colon (colonStops _), isValue, isComma,
            rest]

/-! ## The scan ends -/

private theorem scalarText_ends (value : Text) : scalarText value ≠ .error .outOfFuel := by
  fun_induction scalarText value with
  | case1 => exact nofun
  | case2 unit high low rest isLow ih => exact ih
  | case3 => exact nofun
  | case4 => exact nofun
  | case5 => exact nofun
  | case6 unit rest notHigh notLow ih => exact ih

private theorem str_ends (source : Text) : str source ≠ .error .outOfFuel := by
  unfold str
  split
  · split
    · split
      · rename_i value _
        cases checked : scalarText value with
        | ok _ => exact nofun
        | error fault =>
            intro same
            cases same
            exact scalarText_ends value checked
      · exact nofun
    · exact nofun
  · exact nofun

/-- With more fuel than there is left to scan, the loop does not run out of it, and how much more
does not matter. -/
theorem members_ends (fuel other : Nat) (source : Text) (seen : List Text)
    (enough : source.length < fuel) (enough' : source.length < other) :
    members fuel source seen = members other source seen ∧
      members fuel source seen ≠ .error .outOfFuel := by
  induction fuel generalizing other source seen with
  | zero => cases enough
  | succ fuel ih =>
      obtain ⟨other, rfl⟩ := Nat.exists_eq_succ_of_ne_zero (Nat.ne_of_gt (Nat.zero_lt_of_lt enough'))
      rw [members, members]
      cases isKey : str source with
      | error fault =>
          exact ⟨rfl, fun same => by cases same; exact str_ends source isKey⟩
      | ok read =>
          obtain ⟨key, afterKey⟩ := read
          have first := length_str source key afterKey isKey
          simp only [except_ok_bind]
          split
          · exact ⟨rfl, nofun⟩
          · split
            · rename_i afterColon isColon
              have second := length_skipSpace afterKey
              rw [isColon, List.length_cons] at second
              cases isValue : str afterColon with
              | error fault =>
                  exact ⟨rfl, fun same => by cases same; exact str_ends afterColon isValue⟩
              | ok read =>
                  obtain ⟨value, afterValue⟩ := read
                  have third := length_str afterColon value afterValue isValue
                  simp only [except_ok_bind]
                  split
                  · rename_i next isComma
                    have fourth := length_skipSpace afterValue
                    rw [isComma, List.length_cons] at fourth
                    exact ih other next (key :: seen) (by omega) (by omega)
                  · exact ⟨rfl, nofun⟩
            · exact ⟨rfl, nofun⟩

/-! ## Tags -/

private theorem closing_ok_iff (source : Text) :
    closing source = .ok () ↔ ∃ rest, source = 125 :: rest ∧ skipSpace rest = [] := by
  unfold closing
  split
  · rename_i rest
    constructor
    · intro closed
      split at closed
      · rename_i blank
        exact ⟨rest, rfl, blank⟩
      · cases closed
    · rintro ⟨_, same, blank⟩
      cases same
      rw [if_pos blank]
  · rename_i other
    exact iff_of_false nofun fun closed => other _ closed.choose_spec.1

/-- The members of an object start with a quote, behind white space. -/
private theorem members_quoted (pairs : List (Text × JsonTree)) (source rest : Text)
    (each : JsonGrammar.Members isJsonSpace pairs source rest) :
    (∃ start, skipSpace source = 34 :: start) ∧
      JsonGrammar.Members isJsonSpace pairs (skipSpace source) rest := by
  have quoted : ∀ start, Stops (34 :: start) := by simp [Stops, isJsonSpace]
  cases each with
  | last name tree _ start afterName afterColon _ before isName colon spaced =>
      rw [skipSpace_of_space source _ before (quoted start)]
      exact ⟨⟨start, rfl⟩,
        .last name tree _ start afterName afterColon rest (.done _) isName colon spaced⟩
  | more name tree others _ start afterName afterColon between _ before isName colon spaced more =>
      rw [skipSpace_of_space source _ before (quoted start)]
      exact ⟨⟨start, rfl⟩, .more name tree others _ start afterName afterColon between rest
        (.done _) isName colon spaced more⟩

/-- A JSON object of strings under distinct names, all without unpaired surrogates. -/
def IsTags (value : Text) : Prop :=
  ∃ pairs : List (Text × Text), JsonGrammar.IsText isJsonSpace (.object (strings pairs)) value ∧
    (pairs.map Prod.fst).Nodup ∧ ∀ pair ∈ pairs, IsWellFormed pair.1 ∧ IsWellFormed pair.2

private theorem isTags_of_tags (value : Text) (accepted : tags value = .ok ()) : IsTags value := by
  unfold tags tagsWithin at accepted
  split at accepted
  · rename_i inside isOpen
    have before := isOpen ▸ space_skipSpace value
    split at accepted
    · obtain ⟨after, isClose, blank⟩ := (closing_ok_iff _).mp accepted
      have empty := isClose ▸ space_skipSpace inside
      exact ⟨[], .mk _ value _ after [] before (.emptyObject inside after empty)
        (blank ▸ space_skipSpace after), List.nodup_nil, nofun⟩
    · obtain ⟨rest, isRest, closed⟩ := except_bind_ok _ _ _ accepted
      obtain ⟨after, rfl, blank⟩ := (closing_ok_iff rest).mp closed
      obtain ⟨pairs, each, distinct, fresh⟩ := members_sound _ _ _ _ isRest
      have each := JsonGrammar.members_space _ inside _ _ (space_skipSpace inside) each
      exact ⟨pairs, .mk _ value _ after [] before (.object _ inside after each)
        (blank ▸ space_skipSpace after), distinct, fun pair member => (fresh pair member).2⟩
  · cases accepted

private theorem tags_of_isTags (value : Text) (isTags : IsTags value) : tags value = .ok () := by
  obtain ⟨pairs, isText, distinct, formed⟩ := isTags
  cases isText with
  | mk _ _ start after _ before token behind =>
      have blank := skipSpace_of_space after [] behind nofun
      have closed : closing (125 :: after) = .ok () := (closing_ok_iff _).mpr ⟨after, rfl, blank⟩
      generalize isObject : strings pairs = listed at token
      cases token with
      | emptyObject inside _ space =>
          have isOpen := skipSpace_of_space value _ before (by simp [Stops, isJsonSpace])
          have isClose := skipSpace_of_space inside _ space (by simp [Stops, isJsonSpace])
          unfold tags tagsWithin
          simp only [isOpen, isClose, List.head?_cons, if_true]
          exact closed
      | object _ inside _ each =>
          subst isObject
          have isOpen := skipSpace_of_space value _ before (by simp [Stops, isJsonSpace])
          obtain ⟨⟨quoted, isQuoted⟩, fromQuote⟩ := members_quoted _ inside _ each
          have shorter : (skipSpace inside).length < value.length + 1 := by
            have first := JsonGrammar.length_space _ _ before
            have second := length_skipSpace inside
            rw [List.length_cons] at first
            omega
          have read := members_complete pairs (value.length + 1) _ after [] shorter fromQuote
            distinct fun pair member => ⟨List.not_mem_nil, formed pair member⟩
          unfold tags tagsWithin
          rw [isQuoted] at read
          simp only [isOpen, isQuoted, List.head?_cons]
          rw [if_neg (by decide), read]
          exact closed

private theorem tagsWithin_ends (fuel other : Nat) (value : Text) (enough : value.length < fuel)
    (enough' : value.length < other) :
    tagsWithin fuel value = tagsWithin other value ∧ tagsWithin fuel value ≠ .error .outOfFuel := by
  have closes : ∀ source, closing source ≠ .error .outOfFuel := by
    intro source
    unfold closing
    split
    · split <;> exact nofun
    · exact nofun
  unfold tagsWithin
  split
  · rename_i inside isOpen
    have first := length_skipSpace value
    have second := length_skipSpace inside
    rw [isOpen, List.length_cons] at first
    obtain ⟨same, ends⟩ := members_ends fuel other (skipSpace inside) [] (by omega) (by omega)
    rw [same] at ends ⊢
    refine ⟨rfl, ?_⟩
    split
    · exact closes _
    · cases outcome : members other (skipSpace inside) [] with
      | ok rest => exact closes rest
      | error fault =>
          intro failed
          cases failed
          exact ends outcome
  · exact ⟨rfl, nofun⟩

/-- The check of the reserved tags accepts the JSON objects of strings with distinct names and no
unpaired surrogate, and its scan ends whatever the text. -/
theorem tags_check_iff (value : Text) :
    (entry (text "tags") value = .ok () ↔ IsWellFormed value ∧ IsTags value) ∧
      (∀ more, tagsWithin (value.length + 1 + more) value = tags value) ∧
      entry (text "tags") value ≠ .error .outOfFuel := by
  have checks : entry (text "tags") value = scalarText value >>= fun _ => tags value := by
    rw [entry, if_neg (by decide), if_pos rfl]
  have ends := fun more => tagsWithin_ends (value.length + 1 + more) (value.length + 1) value
    (by omega) (by omega)
  refine ⟨?_, fun more => (ends more).1, ?_⟩
  · rw [checks]
    constructor
    · intro accepted
      obtain ⟨_, formed, accepted⟩ := except_bind_ok _ _ _ accepted
      exact ⟨(scalarText_ok_iff value).mp formed, isTags_of_tags value accepted⟩
    · rintro ⟨formed, isTags⟩
      rw [(scalarText_ok_iff value).mpr formed, except_ok_bind, tags_of_isTags value isTags]
  · rw [checks]
    cases formed : scalarText value with
    | ok _ => exact (ends 0).2
    | error fault =>
        intro failed
        cases failed
        exact scalarText_ends value formed

end VgiWorker.Catalog.ColumnTags
