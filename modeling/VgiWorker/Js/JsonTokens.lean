import VgiWorker.Js.JsonGrammar

/-!
# The tokens of the grammar

The scanners for white space, strings and numbers take the tokens of the
grammar, and a number as long as it goes.
-/

set_option autoImplicit false

namespace VgiWorker.Js

open JsonGrammar

/-! ## White space -/

namespace Dialect

variable (dialect : Dialect)

/-- No white space is a printable ASCII character, which tokens are made of. -/
def SpacesApart : Prop :=
  ∀ unit, dialect.isSpace unit = true → unit.toNat < 33 ∨ 126 < unit.toNat

theorem space_rest (cursor : Cursor) :
    Space dialect.isSpace cursor.rest (dialect.space cursor).rest := by
  obtain ⟨offset, source⟩ := cursor
  show Space dialect.isSpace source (source.drop (source.takeWhile dialect.isSpace).length)
  induction source with
  | nil => exact .done []
  | cons unit rest ih =>
      by_cases isSpace : dialect.isSpace unit = true
      · rw [List.takeWhile_cons_of_pos isSpace]
        exact .step unit rest _ isSpace ih
      · rw [List.takeWhile_cons_of_neg isSpace]
        exact .done _

/-- The text starts with something that is no white space, or is over. -/
def NoSpace (rest : Text) : Prop :=
  ∀ unit, rest.head? = some unit → dialect.isSpace unit = false

theorem space_of_space (offset : Nat) (source rest : Text)
    (space : Space dialect.isSpace source rest) (noSpace : dialect.NoSpace rest) :
    (dialect.space ⟨offset, source⟩).rest = rest := by
  show source.drop (source.takeWhile dialect.isSpace).length = rest
  induction space with
  | done rest =>
      cases rest with
      | nil => rfl
      | cons unit others =>
          rw [List.takeWhile_cons_of_neg (by rw [noSpace unit rfl]; decide)]
          rfl
  | step unit source rest isSpace more ih =>
      rw [List.takeWhile_cons_of_pos isSpace]
      exact ih noSpace

end Dialect

/-! ## Strings -/

theorem characters_of_unescape (value inner rest : Text)
    (unescaped : unescape? inner = some value) : Characters value (inner ++ 34 :: rest) rest := by
  fun_induction unescape? inner generalizing value with
  | case1 =>
      cases unescaped
      exact .close rest
  | case2 a b c d others ih =>
      obtain ⟨high, isHigh, unescaped⟩ := Option.bind_eq_some_iff.mp unescaped
      obtain ⟨second, isSecond, unescaped⟩ := Option.bind_eq_some_iff.mp unescaped
      obtain ⟨third, isThird, unescaped⟩ := Option.bind_eq_some_iff.mp unescaped
      obtain ⟨low, isLow, unescaped⟩ := Option.bind_eq_some_iff.mp unescaped
      obtain ⟨tail, isTail, unescaped⟩ := Option.bind_eq_some_iff.mp unescaped
      cases unescaped
      exact .unicode a b c d high second third low tail _ rest isHigh isSecond isThird isLow
        (ih tail isTail)
  | case3 letter others _ ih =>
      obtain ⟨unit, isUnit, unescaped⟩ := Option.bind_eq_some_iff.mp unescaped
      obtain ⟨tail, isTail, unescaped⟩ := Option.bind_eq_some_iff.mp unescaped
      cases unescaped
      exact .escape letter unit tail _ rest isUnit (ih tail isTail)
  | case4 => cases unescaped
  | case5 unit others _ _ plain ih =>
      obtain ⟨tail, isTail, unescaped⟩ := Option.bind_eq_some_iff.mp unescaped
      cases unescaped
      exact .plain unit tail _ rest (by omega) (fun quote => plain (.inr (.inl quote)))
        (fun slash => plain (.inr (.inr slash))) (ih tail isTail)

private theorem scanString_plain (unit : CodeUnit) (rest : Text) (count : Nat)
    (printable : 0x20 ≤ unit.toNat) (notQuote : unit ≠ 34) (notEscape : unit ≠ 92) :
    scanString (unit :: rest) false count = scanString rest false (count + 1) := by
  have low : ¬unit.toNat < 0x20 := by omega
  have notSlash : (unit == 92) = false := by simpa using notEscape
  simp [scanString, notQuote, notSlash, low]

private theorem scanString_escaped (unit : CodeUnit) (rest : Text) (count : Nat) :
    scanString (92 :: unit :: rest) false count = scanString rest false (count + 2) := by
  simp [scanString]

theorem hexValue_plain (unit : CodeUnit) (value : Nat)
    (isDigit : hexValue? unit = some value) :
    0x20 ≤ unit.toNat ∧ unit ≠ 34 ∧ unit ≠ 92 := by
  unfold hexValue? at isDigit
  refine ⟨?_, ?_, ?_⟩
  · dsimp only at isDigit
    split at isDigit
    · omega
    · split at isDigit
      · omega
      · split at isDigit
        · omega
        · cases isDigit
  · rintro rfl
    cases isDigit
  · rintro rfl
    cases isDigit

/-- What is between the quotes, and how the scan for the closing quote goes over it. -/
theorem unescape_of_characters (value source rest : Text)
    (token : Characters value source rest) :
    ∃ inner, source = inner ++ 34 :: rest ∧ unescape? inner = some value ∧
      ∀ count, scanString source false count = (count + inner.length + 1, .quote) := by
  induction token with
  | close rest => exact ⟨[], rfl, rfl, fun count => by simp [scanString]⟩
  | plain unit value source rest printable notQuote notEscape more ih =>
      obtain ⟨inner, rfl, unescaped, scanned⟩ := ih
      refine ⟨unit :: inner, rfl, ?_, fun count => ?_⟩
      · rw [unescape?, if_neg, unescaped]
        · rfl
        · rintro (control | quote | slash)
          · omega
          · exact notQuote quote
          · exact notEscape slash
        · exact fun _ _ _ _ _ slash _ => notEscape slash
        · exact fun _ _ slash _ => notEscape slash
      · rw [scanString_plain unit _ count printable notQuote notEscape, scanned, List.length_cons]
        congr 1
        omega
  | escape letter unit value source rest isEscape more ih =>
      obtain ⟨inner, rfl, unescaped, scanned⟩ := ih
      refine ⟨92 :: letter :: inner, rfl, ?_, fun count => ?_⟩
      · rw [unescape?, isEscape, unescaped]
        · rfl
        · rintro _ _ _ _ _ rfl _
          cases isEscape
      · rw [scanString_escaped, scanned, List.length_cons, List.length_cons]
        congr 1
        omega
  | unicode a b c d high second third low value source rest isHigh isSecond isThird isLow more ih =>
      obtain ⟨inner, rfl, unescaped, scanned⟩ := ih
      refine ⟨92 :: 117 :: a :: b :: c :: d :: inner, rfl, ?_, fun count => ?_⟩
      · rw [unescape?, isHigh, isSecond, isThird, isLow, unescaped]
        rfl
      · obtain ⟨aPrintable, aQuote, aSlash⟩ := hexValue_plain a high isHigh
        obtain ⟨bPrintable, bQuote, bSlash⟩ := hexValue_plain b second isSecond
        obtain ⟨cPrintable, cQuote, cSlash⟩ := hexValue_plain c third isThird
        obtain ⟨dPrintable, dQuote, dSlash⟩ := hexValue_plain d low isLow
        rw [scanString_escaped, scanString_plain a _ _ aPrintable aQuote aSlash,
          scanString_plain b _ _ bPrintable bQuote bSlash,
          scanString_plain c _ _ cPrintable cQuote cSlash,
          scanString_plain d _ _ dPrintable dQuote dSlash, scanned]
        simp only [List.length_cons]
        congr 1
        omega

private theorem scanString_quote (source : Text) (escaped : Bool) (count last : Nat)
    (scanned : scanString source escaped count = (last, .quote)) :
    ∃ inner rest, source = inner ++ 34 :: rest ∧ last = count + inner.length + 1 := by
  induction source generalizing escaped count with
  | nil => cases scanned
  | cons unit others ih =>
      rw [scanString] at scanned
      split at scanned
      · rename_i quote
        cases scanned
        obtain rfl : unit = 34 := by simpa using (Bool.and_eq_true_iff.mp quote).2
        exact ⟨[], others, rfl, rfl⟩
      · split at scanned
        · cases scanned
        · obtain ⟨inner, rest, rfl, same⟩ := ih _ _ scanned
          refine ⟨unit :: inner, rest, rfl, ?_⟩
          rw [same, List.length_cons]
          omega

theorem parseStringToken_inner (inner : Text) :
    parseStringToken? (34 :: (inner ++ [34])) = unescape? inner := by
  simp [parseStringToken?]

private theorem token_split (inner rest : Text) :
    (34 :: (inner ++ 34 :: rest)).take (inner.length + 2) = 34 :: (inner ++ [34]) ∧
      (34 :: (inner ++ 34 :: rest)).drop (inner.length + 2) = rest := by
  have whole : 34 :: (inner ++ 34 :: rest) = (34 :: (inner ++ [34])) ++ rest := by simp
  have length : (34 :: (inner ++ [34]) : Text).length = inner.length + 2 := by simp
  rw [whole]
  exact ⟨List.take_left' length, List.drop_left' length⟩

theorem characters_of_readString (cursor after : Cursor) (value source : Text)
    (quoted : cursor.rest = 34 :: source) (read : readString cursor = .ok (value, after)) :
    Characters value source after.rest := by
  obtain ⟨offset, rest⟩ := cursor
  subst quoted
  unfold readString at read
  dsimp only at read
  rw [List.tail_cons] at read
  cases scanned : scanString source false 0 with
  | mk count ended =>
      rw [scanned] at read
      cases ended with
      | control => cases read
      | unterminated => cases read
      | quote =>
          obtain ⟨inner, rest, rfl, same⟩ := scanString_quote source false 0 count scanned
          obtain rfl : count = inner.length + 1 := by omega
          obtain ⟨taken, left⟩ := token_split inner rest
          dsimp only at read
          rw [taken, parseStringToken_inner] at read
          cases unescaped : unescape? inner with
          | none =>
              rw [unescaped] at read
              cases read
          | some decoded =>
              rw [unescaped] at read
              cases read
              have characters := characters_of_unescape value inner rest unescaped
              show Characters value _ ((34 :: (inner ++ 34 :: rest)).drop (inner.length + 2))
              rwa [left]

theorem readString_of_characters (offset : Nat) (value source rest : Text)
    (token : Characters value source rest) :
    ∃ after, readString ⟨offset, 34 :: source⟩ = .ok (value, ⟨after, rest⟩) := by
  obtain ⟨inner, rfl, unescaped, scanned⟩ := unescape_of_characters value source rest token
  obtain ⟨taken, left⟩ := token_split inner rest
  refine ⟨offset + (inner.length + 2), ?_⟩
  unfold readString
  dsimp only
  rw [List.tail_cons, scanned 0, Nat.zero_add]
  dsimp only
  rw [taken, parseStringToken_inner, unescaped]
  simp only [Cursor.advance, left]

/-! ## Numbers -/

/-- A unit that would go on with a number before its exponent. -/
def isFractionUnit (unit : CodeUnit) : Bool :=
  Number.isDigit unit || unit == 46

def isNumberUnit (unit : CodeUnit) : Bool :=
  isFractionUnit unit || unit == 101 || unit == 69

/-- The text is over, or does not start with one of these units. -/
def Avoids (units : CodeUnit → Bool) (rest : Text) : Prop :=
  ∀ unit, rest.head? = some unit → units unit = false

private theorem takeWhile_avoids (units : CodeUnit → Bool) (rest : Text) (avoids : Avoids units rest) :
    rest.takeWhile units = [] := by
  cases rest with
  | nil => rfl
  | cons unit others => rw [List.takeWhile_cons_of_neg (by rw [avoids unit rfl]; decide)]

private theorem takeWhile_digits (digits rest : Text) (isDigits : IsDigits digits)
    (avoids : Avoids Number.isDigit rest) : (digits ++ rest).takeWhile Number.isDigit = digits := by
  rw [List.takeWhile_append_of_pos isDigits.2, takeWhile_avoids _ rest avoids, List.append_nil]

private theorem isDigits_takeWhile (source : Text)
    (nonempty : source.takeWhile Number.isDigit ≠ []) :
    IsDigits (source.takeWhile Number.isDigit) :=
  ⟨nonempty, List.all_eq_true.mp List.all_takeWhile⟩

private theorem takeWhile_append_drop (source : Text) :
    source.takeWhile Number.isDigit ++ source.drop (source.takeWhile Number.isDigit).length =
      source :=
  List.prefix_iff_eq_append.mp (List.takeWhile_prefix Number.isDigit)

private theorem wholePart_sound (source whole : Text) (read : wholePart? source = some whole) :
    WholePart whole source (source.drop whole.length) := by
  unfold wholePart? at read
  split at read
  · cases read
    exact .zero _
  · rename_i unit others notZero
    split at read
    · rename_i isDigit
      cases read
      have split := takeWhile_append_drop (unit :: others)
      have isDigits := isDigits_takeWhile (unit :: others) (by
        rw [List.takeWhile_cons_of_pos isDigit]
        exact List.cons_ne_nil _ _)
      have lead : ((unit :: others).takeWhile Number.isDigit).head? ≠ some 48 := by
        rw [List.takeWhile_cons_of_pos isDigit]
        intro zero
        exact notZero (Option.some.inj zero)
      have part := WholePart.digits _ ((unit :: others).drop
        ((unit :: others).takeWhile Number.isDigit).length) isDigits lead
      rwa [split] at part
    · cases read
  · cases read

private theorem wholePart_complete (whole source rest : Text) (part : WholePart whole source rest)
    (avoids : Avoids Number.isDigit rest) :
    wholePart? source = some whole ∧ source.drop whole.length = rest := by
  cases part with
  | zero rest => exact ⟨rfl, rfl⟩
  | digits whole rest isDigits lead =>
      refine ⟨?_, List.drop_left⟩
      have taken := takeWhile_digits whole rest isDigits avoids
      cases whole with
      | nil => exact absurd rfl isDigits.1
      | cons unit others =>
          rw [List.cons_append] at taken ⊢
          have notZero : unit ≠ 48 := fun zero => lead (by rw [zero]; rfl)
          rw [wholePart?, if_pos (isDigits.2 unit List.mem_cons_self), taken]
          exact notZero

private theorem fractionPart_sound (source : Text) :
    FractionPart (fractionPart source) source
      (source.drop (if fractionPart source = [] then 0 else (fractionPart source).length + 1)) := by
  by_cases absent : fractionPart source = []
  · rw [if_pos absent, absent]
    exact .absent _
  · rw [if_neg absent]
    unfold fractionPart at absent ⊢
    split at absent
    · rename_i digits
      have part := FractionPart.present _ (digits.drop (digits.takeWhile Number.isDigit).length)
        (isDigits_takeWhile digits absent)
      rwa [takeWhile_append_drop] at part
    · exact absurd rfl absent

private theorem avoids_digits (rest : Text) (avoids : Avoids isFractionUnit rest) :
    Avoids Number.isDigit rest :=
  fun unit isHead => (Bool.or_eq_false_iff.mp (avoids unit isHead)).1

private theorem avoids_fraction (rest : Text) (avoids : Avoids isNumberUnit rest) :
    Avoids isFractionUnit rest :=
  fun unit isHead =>
    (Bool.or_eq_false_iff.mp (Bool.or_eq_false_iff.mp (avoids unit isHead)).1).1

private theorem fractionPart_complete (fraction source rest : Text)
    (part : FractionPart fraction source rest) (avoids : Avoids isFractionUnit rest) :
    fractionPart source = fraction ∧
      source.drop (if fraction = [] then 0 else fraction.length + 1) = rest := by
  cases part with
  | absent rest =>
      refine ⟨?_, rfl⟩
      unfold fractionPart
      split
      · cases avoids 46 rfl
      · rfl
  | present fraction rest isDigits =>
      refine ⟨takeWhile_digits fraction rest isDigits (avoids_digits rest avoids), ?_⟩
      rw [if_neg isDigits.1, List.drop_succ_cons, List.drop_left]

private theorem signPart_sound (source : Text) :
    SignPart (Number.takeSign source).1 source (Number.takeSign source).2 ∧
      source.drop (source.length - (Number.takeSign source).2.length) =
        (Number.takeSign source).2 := by
  unfold Number.takeSign
  split
  · exact ⟨.minus _, by simp⟩
  · exact ⟨.plus _, by simp⟩
  · exact ⟨.absent _, by simp⟩

private theorem signPart_complete (negative : Bool) (source digits rest : Text)
    (part : SignPart negative source (digits ++ rest)) (isDigits : IsDigits digits) :
    Number.takeSign source = (negative, digits ++ rest) := by
  generalize whole : digits ++ rest = after at part
  cases part with
  | minus _ => rfl
  | plus _ => rfl
  | absent _ =>
      cases digits with
      | nil => exact absurd rfl isDigits.1
      | cons unit others =>
          have isDigit := isDigits.2 unit List.mem_cons_self
          subst whole
          unfold Number.takeSign
          split
          · rename_i same
            rw [(List.cons.inj same).1] at isDigit
            cases isDigit
          · rename_i same
            rw [(List.cons.inj same).1] at isDigit
            cases isDigit
          · rfl

private theorem exponentPart_sound (source : Text) :
    ExponentPart (exponentPart source).1 source (source.drop (exponentPart source).2) := by
  cases source with
  | nil => exact .absent []
  | cons marker after =>
      rw [exponentPart]
      obtain ⟨sign, dropped⟩ := signPart_sound after
      generalize Number.takeSign after = signed at sign dropped
      obtain ⟨negative, unsigned⟩ := signed
      dsimp only at sign dropped ⊢
      by_cases present : (marker = 101 ∨ marker = 69) ∧ unsigned.takeWhile Number.isDigit ≠ []
      · rw [if_pos present]
        have split := takeWhile_append_drop unsigned
        have part := ExponentPart.present marker negative after _ _ present.1 (by rwa [split])
          (isDigits_takeWhile unsigned present.2)
        have last : (marker :: after).drop (1 + (after.length - unsigned.length) +
            (unsigned.takeWhile Number.isDigit).length) =
            unsigned.drop (unsigned.takeWhile Number.isDigit).length := by
          rw [Nat.add_assoc, Nat.add_comm 1, List.drop_succ_cons, ← List.drop_drop, dropped]
        rwa [last]
      · rw [if_neg present]
        exact .absent _

private theorem exponentPart_complete (exponent : Int) (source rest : Text)
    (part : ExponentPart exponent source rest) (avoids : Avoids isNumberUnit rest) :
    (exponentPart source).1 = exponent ∧ source.drop (exponentPart source).2 = rest := by
  cases part with
  | absent _ =>
      cases source with
      | nil => exact ⟨rfl, rfl⟩
      | cons marker after =>
          have notMarker : ¬(marker = 101 ∨ marker = 69) := by
            have avoided := avoids marker rfl
            rintro (rfl | rfl) <;> cases avoided
          rw [exponentPart]
          dsimp only
          rw [if_neg (fun present => notMarker present.1)]
          exact ⟨rfl, rfl⟩
  | present marker negative after digits rest isMarker sign isDigits =>
      have taken := takeWhile_digits digits rest isDigits
        (avoids_digits rest (avoids_fraction rest avoids))
      obtain ⟨_, dropped⟩ := signPart_sound after
      rw [exponentPart, signPart_complete negative after digits rest sign isDigits] at *
      dsimp only at dropped ⊢
      rw [taken, if_pos ⟨isMarker, isDigits.1⟩]
      refine ⟨rfl, ?_⟩
      rw [Nat.add_assoc, Nat.add_comm 1, List.drop_succ_cons, ← List.drop_drop, dropped,
        List.drop_left]

/-- The token that `scanNumber?` makes of a text whose sign is off. -/
private def scanUnsigned? (negative : Bool) (unsigned : Text) : Option (Number × Nat) :=
  match wholePart? unsigned with
  | none => none
  | some whole =>
      let afterWhole := unsigned.drop whole.length
      let fraction := fractionPart afterWhole
      let fractionLength := if fraction = [] then 0 else fraction.length + 1
      let (exponent, exponentLength) := exponentPart (afterWhole.drop fractionLength)
      some (Number.ofDecimal negative whole fraction exponent,
        whole.length + fractionLength + exponentLength)

private theorem scanNumber_minus (unsigned : Text) :
    scanNumber? (45 :: unsigned) =
      (scanUnsigned? true unsigned).map fun token => (token.1, 1 + token.2) := by
  simp only [scanNumber?, scanUnsigned?]
  cases wholePart? unsigned with
  | none => rfl
  | some whole =>
      simp only [Option.map_some, List.length_cons, Option.some.injEq, Prod.mk.injEq, true_and]
      omega

private theorem scanNumber_plain (unsigned : Text) (plain : unsigned.head? ≠ some 45) :
    scanNumber? unsigned = scanUnsigned? false unsigned := by
  unfold scanNumber?
  split
  rename_i negative rest same
  have signed : negative = false ∧ rest = unsigned := by
    split at same
    · exact absurd rfl plain
    · cases same
      exact ⟨rfl, rfl⟩
  obtain ⟨rfl, rfl⟩ := signed
  unfold scanUnsigned?
  cases wholePart? rest with
  | none => rfl
  | some whole => simp only [Nat.sub_self, Nat.zero_add]

private theorem scanUnsigned_sound (negative : Bool) (unsigned : Text) (number : Number)
    (length : Nat) (scanned : scanUnsigned? negative unsigned = some (number, length)) :
    ∃ whole fraction exponent afterWhole afterFraction,
      WholePart whole unsigned afterWhole ∧ FractionPart fraction afterWhole afterFraction ∧
        ExponentPart exponent afterFraction (unsigned.drop length) ∧
        number = Number.ofDecimal negative whole fraction exponent := by
  unfold scanUnsigned? at scanned
  cases isWhole : wholePart? unsigned with
  | none =>
      rw [isWhole] at scanned
      cases scanned
  | some whole =>
      rw [isWhole] at scanned
      cases scanned
      refine ⟨whole, _, _, _, _, wholePart_sound unsigned whole isWhole, fractionPart_sound _, ?_, rfl⟩
      rw [← List.drop_drop, ← List.drop_drop]
      exact exponentPart_sound _

private theorem avoids_after_exponent (exponent : Int) (source rest : Text)
    (part : ExponentPart exponent source rest) (avoids : Avoids isNumberUnit rest) :
    Avoids isFractionUnit source := by
  cases part with
  | absent _ => exact avoids_fraction source avoids
  | present marker _ _ _ _ isMarker _ _ =>
      intro unit isHead
      cases isHead
      rcases isMarker with rfl | rfl <;> rfl

private theorem avoids_after_fraction (fraction source rest : Text)
    (part : FractionPart fraction source rest) (avoids : Avoids isFractionUnit rest) :
    Avoids Number.isDigit source := by
  cases part with
  | absent _ => exact avoids_digits source avoids
  | present _ _ _ =>
      intro unit isHead
      cases isHead
      rfl

private theorem scanUnsigned_complete (negative : Bool) (whole fraction : Text) (exponent : Int)
    (unsigned afterWhole afterFraction rest : Text) (isWhole : WholePart whole unsigned afterWhole)
    (isFraction : FractionPart fraction afterWhole afterFraction)
    (isExponent : ExponentPart exponent afterFraction rest) (avoids : Avoids isNumberUnit rest) :
    ∃ length, scanUnsigned? negative unsigned =
        some (Number.ofDecimal negative whole fraction exponent, length) ∧
      unsigned.drop length = rest := by
  have fractionAvoids := avoids_after_exponent exponent afterFraction rest isExponent avoids
  have wholeAvoids := avoids_after_fraction fraction afterWhole afterFraction isFraction fractionAvoids
  obtain ⟨wholeRead, wholeDropped⟩ := wholePart_complete whole unsigned afterWhole isWhole wholeAvoids
  obtain ⟨fractionRead, fractionDropped⟩ :=
    fractionPart_complete fraction afterWhole afterFraction isFraction fractionAvoids
  obtain ⟨exponentRead, exponentDropped⟩ :=
    exponentPart_complete exponent afterFraction rest isExponent avoids
  refine ⟨whole.length + (if fraction = [] then 0 else fraction.length + 1) +
    (exponentPart afterFraction).2, ?_, ?_⟩
  · unfold scanUnsigned?
    rw [wholeRead]
    simp only [wholeDropped, fractionRead, fractionDropped, exponentRead]
  · rw [← List.drop_drop, ← List.drop_drop, wholeDropped, fractionDropped, exponentDropped]

theorem scanNumber_sound (source : Text) (number : Number) (length : Nat)
    (scanned : scanNumber? source = some (number, length)) :
    NumberToken number source (source.drop length) := by
  by_cases minus : source.head? = some 45
  · obtain ⟨unsigned, rfl⟩ : ∃ unsigned, source = 45 :: unsigned := by
      cases source with
      | nil => cases minus
      | cons unit others => exact ⟨others, by rw [Option.some.inj minus]⟩
    rw [scanNumber_minus] at scanned
    obtain ⟨⟨read, count⟩, isRead, same⟩ := Option.map_eq_some_iff.mp scanned
    cases same
    obtain ⟨whole, fraction, exponent, afterWhole, afterFraction, isWhole, isFraction, isExponent,
      rfl⟩ := scanUnsigned_sound true unsigned _ count isRead
    rw [Nat.add_comm, List.drop_succ_cons]
    exact .negative whole fraction exponent unsigned afterWhole afterFraction _ isWhole isFraction
      isExponent
  · rw [scanNumber_plain source minus] at scanned
    obtain ⟨whole, fraction, exponent, afterWhole, afterFraction, isWhole, isFraction, isExponent,
      rfl⟩ := scanUnsigned_sound false source _ length scanned
    exact .plain whole fraction exponent source afterWhole afterFraction _ isWhole isFraction
      isExponent

/-- A number starts with its sign or a digit. -/
theorem numberToken_head (number : Number) (source rest : Text)
    (token : NumberToken number source rest) :
    ∃ unit others, source = unit :: others ∧ (unit = 45 ∨ Number.isDigit unit = true) := by
  cases token with
  | negative _ _ _ source _ _ _ _ _ _ => exact ⟨45, source, rfl, .inl rfl⟩
  | plain whole _ _ source _ _ _ isWhole _ _ =>
      cases isWhole with
      | zero _ => exact ⟨48, _, rfl, .inr rfl⟩
      | digits whole _ isDigits _ =>
          cases whole with
          | nil => exact absurd rfl isDigits.1
          | cons unit others =>
              exact ⟨unit, _, rfl, .inr (isDigits.2 unit List.mem_cons_self)⟩

theorem scanNumber_complete (number : Number) (source rest : Text)
    (token : NumberToken number source rest) (avoids : Avoids isNumberUnit rest) :
    ∃ length, scanNumber? source = some (number, length) ∧ source.drop length = rest := by
  cases token with
  | negative whole fraction exponent unsigned afterWhole afterFraction rest isWhole isFraction
      isExponent =>
      obtain ⟨length, scanned, dropped⟩ := scanUnsigned_complete true whole fraction exponent unsigned
        afterWhole afterFraction rest isWhole isFraction isExponent avoids
      refine ⟨1 + length, ?_, ?_⟩
      · rw [scanNumber_minus, scanned]
        rfl
      · rw [Nat.add_comm, List.drop_succ_cons, dropped]
  | plain whole fraction exponent source afterWhole afterFraction rest isWhole isFraction
      isExponent =>
      have plain : source.head? ≠ some 45 := by
        cases isWhole with
        | zero rest => simp
        | digits whole rest isDigits _ =>
            cases whole with
            | nil => exact absurd rfl isDigits.1
            | cons unit others =>
                intro minus
                have isDigit := isDigits.2 unit List.mem_cons_self
                rw [Option.some.inj minus] at isDigit
                cases isDigit
      rw [scanNumber_plain source plain]
      exact scanUnsigned_complete false whole fraction exponent source afterWhole afterFraction rest
        isWhole isFraction isExponent avoids

end VgiWorker.Js
