import VgiWorker.Data.Result
import VgiWorker.Js.JsonTokens

/-!
# The reader and the grammar

A reader whose white space lies outside the printable ASCII characters reads
the texts of the grammar that it admits, and no others.
-/

set_option autoImplicit false

namespace VgiWorker.Js

open JsonGrammar

namespace Dialect

variable (dialect : Dialect)

/-! ## What is read -/

/-- The object under construction after more members. -/
def assignAll (object : List (Text × Json) × Option Json) (members : List (Text × Json)) :
    List (Text × Json) × Option Json :=
  members.foldl (fun object member => dialect.assign object member.1 member.2) object

mutual

/-- The value a reader builds for what a text says. -/
def build : JsonTree → Json
  | .null => .null
  | .bool value => .bool value
  | .number value => .number value
  | .string value => .string value
  | .array elements => .array (buildEach elements)
  | .object members =>
      let object := assignAll dialect ([], none) (buildMembers members)
      .object object.1 object.2

def buildEach : List JsonTree → List Json
  | [] => []
  | element :: rest => build element :: buildEach rest

def buildMembers : List (Text × JsonTree) → List (Text × Json)
  | [] => []
  | (name, value) :: rest => (name, build value) :: buildMembers rest

end

def NumberAdmitted (number : Number) : Prop :=
  dialect.rejectsNonFinite = true → number.isFinite = true

def NamesAdmitted (names : List Text) : Prop :=
  dialect.rejectsRepeatedNames = true → names.Nodup

abbrev Admits (tree : JsonTree) : Prop :=
  tree.Each dialect.NumberAdmitted dialect.NamesAdmitted

/-! ## What is read is a text -/

private theorem word_split (word : String) (length : Nat) (source : Text)
    (isLength : (text word).length = length) (isWord : (text word).isPrefixOf source = true) :
    text word ++ source.drop length = source := by
  rw [← isLength]
  exact List.prefix_iff_eq_append.mp (List.isPrefixOf_iff_prefix.mp isWord)

theorem scanWord_sound (source : Text) (value : Json) (length : Nat)
    (scanned : scanWord? source = some (value, length)) :
    ∃ tree, Value dialect.isSpace tree source (source.drop length) ∧ dialect.Admits tree ∧
      value = dialect.build tree := by
  unfold scanWord? at scanned
  split at scanned
  · rename_i isTrue
    cases scanned
    refine ⟨.bool true, ?_, trivial, rfl⟩
    have token : Value dialect.isSpace _ _ _ := .true (source.drop 4)
    rwa [word_split "true" 4 source (by decide) isTrue] at token
  · split at scanned
    · rename_i isFalse
      cases scanned
      refine ⟨.bool false, ?_, trivial, rfl⟩
      have token : Value dialect.isSpace _ _ _ := .false (source.drop 5)
      rwa [word_split "false" 5 source (by decide) isFalse] at token
    · split at scanned
      · rename_i isNull
        cases scanned
        refine ⟨.null, ?_, trivial, rfl⟩
        have token : Value dialect.isSpace _ _ _ := .null (source.drop 4)
        rwa [word_split "null" 4 source (by decide) isNull] at token
      · cases scanned

theorem readScalar_sound (cursor after : Cursor) (value : Json)
    (read : readScalar dialect cursor = .ok (value, after)) :
    ∃ tree, Value dialect.isSpace tree cursor.rest after.rest ∧ dialect.Admits tree ∧
      value = dialect.build tree := by
  unfold readScalar at read
  split at read
  · rename_i word length scanned
    cases read
    exact dialect.scanWord_sound cursor.rest value length scanned
  · split at read
    · rename_i number length scanned
      dsimp only at read
      split at read
      · cases read
      · rename_i admitted
        cases read
        refine ⟨.number number, .number number _ _ (scanNumber_sound _ number length scanned), ?_,
          rfl⟩
        intro rejects
        simpa [rejects] using admitted
    · cases read

private theorem next_of_head (cursor : Cursor) (unit : CodeUnit)
    (isNext : cursor.next.1 = some unit) : cursor.rest = unit :: cursor.next.2.rest :=
  List.eq_cons_of_mem_head? isNext

/-- What the steps of the reader with this much fuel say of the texts they are at. -/
structure ReadsTexts (fuel : Nat) : Prop where
  value : ∀ cursor value after, readValue dialect fuel cursor = .ok (value, after) →
    ∃ tree start, Space dialect.isSpace cursor.rest start ∧
      Value dialect.isSpace tree start after.rest ∧ dialect.Admits tree ∧ value = dialect.build tree
  members : ∀ cursor object names value after,
    readMembers dialect fuel cursor object names = .ok (value, after) →
      ∃ members, Members dialect.isSpace members cursor.rest (125 :: after.rest) ∧
        JsonTree.EachMember dialect.NumberAdmitted dialect.NamesAdmitted members ∧
        (dialect.rejectsRepeatedNames = true → (members.map Prod.fst).Nodup ∧
          ∀ name ∈ members.map Prod.fst, name ∉ names) ∧
        value = .object (dialect.assignAll object (dialect.buildMembers members)).1
          (dialect.assignAll object (dialect.buildMembers members)).2
  elements : ∀ cursor elements value after,
    readElements dialect fuel cursor elements = .ok (value, after) →
      ∃ trees, Elements dialect.isSpace trees cursor.rest (93 :: after.rest) ∧
        JsonTree.EachElement dialect.NumberAdmitted dialect.NamesAdmitted trees ∧
        value = .array (elements.reverse ++ dialect.buildEach trees)

private theorem next_of_head? (cursor : Cursor) (unit : CodeUnit)
    (isHead : cursor.rest.head? = some unit) : cursor.rest = unit :: (cursor.advance 1).rest := by
  rw [Cursor.advance, List.drop_one]
  exact List.eq_cons_of_mem_head? isHead

private theorem value_step (fuel : Nat) (reads : dialect.ReadsTexts fuel) (cursor after : Cursor)
    (value : Json) (read : readValue dialect (fuel + 1) cursor = .ok (value, after)) :
    ∃ tree start, Space dialect.isSpace cursor.rest start ∧
      Value dialect.isSpace tree start after.rest ∧ dialect.Admits tree ∧
        value = dialect.build tree := by
  have space := dialect.space_rest cursor
  rw [readValue] at read
  generalize dialect.space cursor = start at space read
  dsimp only at read
  split at read
  · rename_i others isObject
    have inside := dialect.space_rest (start.advance 1)
    have advanced : (start.advance 1).rest = others := by
      rw [Cursor.advance, isObject]
      rfl
    rw [advanced] at inside
    rw [isObject] at space
    split at read
    · rename_i closed
      cases read
      rw [next_of_head? _ 125 closed] at inside
      exact ⟨.object [], 123 :: others, space, .emptyObject others _ inside,
        ⟨fun _ => List.nodup_nil, trivial⟩, rfl⟩
    · obtain ⟨members, each, admitted, names, rfl⟩ := reads.members _ _ _ _ _ read
      exact ⟨.object members, 123 :: others, space,
        .object members others _ (members_space members others _ _ inside each),
        ⟨fun rejects => (names rejects).1, admitted⟩, rfl⟩
  · rename_i others isArray
    have inside := dialect.space_rest (start.advance 1)
    have advanced : (start.advance 1).rest = others := by
      rw [Cursor.advance, isArray]
      rfl
    rw [advanced] at inside
    rw [isArray] at space
    split at read
    · rename_i closed
      cases read
      rw [next_of_head? _ 93 closed] at inside
      exact ⟨.array [], 91 :: others, space, .emptyArray others _ inside, trivial, rfl⟩
    · obtain ⟨trees, each, admitted, rfl⟩ := reads.elements _ _ _ _ read
      exact ⟨.array trees, 91 :: others, space,
        .array trees others _ (elements_space trees others _ _ inside each), admitted, rfl⟩
  · rename_i others isString
    obtain ⟨⟨string, ended⟩, isToken, read⟩ := except_bind_ok _ _ _ read
    cases read
    rw [isString] at space
    exact ⟨.string string, 34 :: others, space,
      .string string others _ (characters_of_readString start ended string others isString isToken),
      trivial, rfl⟩
  · obtain ⟨tree, isValue, admits, rfl⟩ := dialect.readScalar_sound start after value read
    exact ⟨tree, start.rest, space, isValue, admits, rfl⟩

private theorem elements_step (fuel : Nat) (reads : dialect.ReadsTexts fuel) (cursor after : Cursor)
    (elements : List Json) (value : Json)
    (read : readElements dialect (fuel + 1) cursor elements = .ok (value, after)) :
    ∃ trees, Elements dialect.isSpace trees cursor.rest (93 :: after.rest) ∧
      JsonTree.EachElement dialect.NumberAdmitted dialect.NamesAdmitted trees ∧
      value = .array (elements.reverse ++ dialect.buildEach trees) := by
  rw [readElements] at read
  obtain ⟨⟨first, afterValue⟩, isFirst, read⟩ := except_bind_ok _ _ _ read
  obtain ⟨tree, start, before, isValue, admits, rfl⟩ := reads.value _ _ _ isFirst
  have behind := dialect.space_rest afterValue
  dsimp only at read
  split at read
  · rename_i closed
    cases read
    rw [next_of_head _ 93 closed] at behind
    refine ⟨[tree], .last tree _ _ (.mk tree _ start _ _ before isValue behind),
      ⟨admits, trivial⟩, ?_⟩
    rw [List.reverse_cons]
    rfl
  · split at read
    · cases read
    · rename_i comma
      rw [next_of_head _ 44 (not_ne_iff.mp comma)] at behind
      obtain ⟨trees, each, admitted, rfl⟩ := reads.elements _ _ _ _ read
      refine ⟨tree :: trees, .more tree trees _ _ _ (.mk tree _ start _ _ before isValue behind) each,
        ⟨admits, admitted⟩, ?_⟩
      rw [List.reverse_cons, List.append_assoc]
      rfl

private theorem members_step (fuel : Nat) (reads : dialect.ReadsTexts fuel) (cursor after : Cursor)
    (object : List (Text × Json) × Option Json) (names : List Text) (value : Json)
    (read : readMembers dialect (fuel + 1) cursor object names = .ok (value, after)) :
    ∃ members, Members dialect.isSpace members cursor.rest (125 :: after.rest) ∧
      JsonTree.EachMember dialect.NumberAdmitted dialect.NamesAdmitted members ∧
      (dialect.rejectsRepeatedNames = true → (members.map Prod.fst).Nodup ∧
        ∀ name ∈ members.map Prod.fst, name ∉ names) ∧
      value = .object (dialect.assignAll object (dialect.buildMembers members)).1
        (dialect.assignAll object (dialect.buildMembers members)).2 := by
  rw [readMembers] at read
  have before := dialect.space_rest cursor
  generalize dialect.space cursor = quoted at before read
  dsimp only at read
  split at read
  · cases read
  rename_i isQuote
  rw [next_of_head? quoted 34 (not_ne_iff.mp isQuote)] at before
  obtain ⟨⟨name, afterName⟩, isName, read⟩ := except_bind_ok _ _ _ read
  have characters := characters_of_readString quoted afterName name _
    (next_of_head? quoted 34 (not_ne_iff.mp isQuote)) isName
  dsimp only at read
  split at read
  · cases read
  rename_i fresh
  have colon := dialect.space_rest afterName
  split at read
  · cases read
  rename_i isColon
  rw [next_of_head _ 58 (not_ne_iff.mp isColon)] at colon
  obtain ⟨⟨first, afterValue⟩, isFirst, read⟩ := except_bind_ok _ _ _ read
  obtain ⟨tree, start, beforeValue, isValue, admits, rfl⟩ := reads.value _ _ _ isFirst
  have behind := dialect.space_rest afterValue
  dsimp only at read
  split at read
  · rename_i closed
    cases read
    rw [next_of_head _ 125 closed] at behind
    refine ⟨[(name, tree)], .last name tree _ _ _ _ _ before characters colon
      (.mk tree _ start _ _ beforeValue isValue behind), ⟨admits, trivial⟩, fun rejects => ?_, rfl⟩
    refine ⟨List.nodup_singleton name, fun other member => ?_⟩
    rw [List.mem_singleton.mp member]
    simpa [rejects] using fresh
  · split at read
    · cases read
    · rename_i comma
      rw [next_of_head _ 44 (not_ne_iff.mp comma)] at behind
      obtain ⟨members, each, admitted, distinct, rfl⟩ := reads.members _ _ _ _ _ read
      refine ⟨(name, tree) :: members, .more name tree members _ _ _ _ _ _ before characters colon
        (.mk tree _ start _ _ beforeValue isValue behind) each, ⟨admits, admitted⟩,
        fun rejects => ?_, rfl⟩
      obtain ⟨nodup, others⟩ := distinct rejects
      refine ⟨List.nodup_cons.mpr ⟨fun member => others name member List.mem_cons_self, nodup⟩,
        fun other member => ?_⟩
      cases member with
      | head => simpa [rejects] using fresh
      | tail _ member => exact fun known => others other member (List.mem_cons_of_mem _ known)

theorem readsTexts (fuel : Nat) : dialect.ReadsTexts fuel := by
  induction fuel with
  | zero => exact ⟨nofun, nofun, nofun⟩
  | succ fuel ih =>
      exact ⟨fun cursor value after => dialect.value_step fuel ih cursor after value,
        fun cursor object names value after =>
          dialect.members_step fuel ih cursor after object names value,
        fun cursor elements value after =>
          dialect.elements_step fuel ih cursor after elements value⟩

theorem isText_of_readJson (source : Text) (value : Json)
    (read : readJson dialect source = .ok value) :
    ∃ tree, IsText dialect.isSpace tree source ∧ dialect.Admits tree ∧
      value = dialect.build tree := by
  unfold readJson at read
  obtain ⟨⟨first, after⟩, isFirst, read⟩ := except_bind_ok _ _ _ read
  obtain ⟨tree, start, before, isValue, admits, rfl⟩ := (dialect.readsTexts _).value _ _ _ isFirst
  have behind := dialect.space_rest after
  dsimp only at read
  split at read
  · cases read
  · rename_i settled
    cases read
    rw [not_ne_iff.mp settled] at behind
    exact ⟨tree, .mk tree source start _ [] before isValue behind, admits, rfl⟩

/-! ## Every text is read -/

/-- A printable ASCII character. -/
private def Printable (unit : CodeUnit) : Prop :=
  33 ≤ unit.toNat ∧ unit.toNat ≤ 126

private theorem printable_digit (unit : CodeUnit) (isDigit : Number.isDigit unit = true) :
    Printable unit := by
  unfold Number.isDigit Number.digitValue? at isDigit
  split at isDigit
  · constructor <;> omega
  · cases isDigit

private theorem printable_numberUnit (unit : CodeUnit) (isUnit : isNumberUnit unit = true) :
    Printable unit := by
  unfold isNumberUnit isFractionUnit at isUnit
  simp only [Bool.or_eq_true, beq_iff_eq] at isUnit
  rcases isUnit with ((isDigit | rfl) | rfl) | rfl
  · exact printable_digit unit isDigit
  all_goals exact ⟨by decide, by decide⟩

private theorem noSpace_cons (apart : dialect.SpacesApart) (unit : CodeUnit) (rest : Text)
    (printable : Printable unit) : dialect.NoSpace (unit :: rest) := by
  intro other isHead
  cases isHead
  cases isSpace : dialect.isSpace unit with
  | false => rfl
  | true =>
      obtain ⟨low, high⟩ := printable
      rcases apart unit isSpace with below | above <;> omega

private theorem avoids_of_space (apart : dialect.SpacesApart) (source rest : Text)
    (space : Space dialect.isSpace source rest) (avoids : Avoids isNumberUnit rest) :
    Avoids isNumberUnit source := by
  cases space with
  | done _ => exact avoids
  | step unit others _ isSpace _ =>
      intro other isHead
      cases isHead
      cases isUnit : isNumberUnit unit with
      | false => rfl
      | true =>
          obtain ⟨low, high⟩ := printable_numberUnit unit isUnit
          rcases apart unit isSpace with below | above <;> omega

private theorem avoids_cons (unit : CodeUnit) (rest : Text) (other : isNumberUnit unit = false) :
    Avoids isNumberUnit (unit :: rest) := by
  intro head isHead
  cases isHead
  exact other

private theorem value_head (tree : JsonTree) (source rest : Text)
    (value : Value dialect.isSpace tree source rest) :
    ∃ unit others, source = unit :: others ∧ Printable unit ∧ unit ≠ 93 := by
  cases value with
  | number number _ _ token =>
      obtain ⟨unit, others, rfl, minus | isDigit⟩ := numberToken_head number source rest token
      · subst minus
        exact ⟨45, others, rfl, ⟨by decide, by decide⟩, by decide⟩
      · refine ⟨unit, others, rfl, printable_digit unit isDigit, ?_⟩
        rintro rfl
        cases isDigit
  | _ => exact ⟨_, _, rfl, ⟨by decide, by decide⟩, by decide⟩

private theorem next_of_rest (cursor : Cursor) (unit : CodeUnit) (rest : Text)
    (isRest : cursor.rest = unit :: rest) :
    cursor.next = (some unit, ⟨cursor.offset + 1, rest⟩) := by
  rw [Cursor.next, isRest]
  rfl

private theorem advance_of_rest (cursor : Cursor) (unit : CodeUnit) (rest : Text)
    (isRest : cursor.rest = unit :: rest) : (cursor.advance 1).rest = rest := by
  rw [Cursor.advance, isRest]
  rfl

private theorem scanWord_number (number : Number) (source rest : Text)
    (token : NumberToken number source rest) : scanWord? source = none := by
  obtain ⟨unit, others, rfl, isHead⟩ := numberToken_head number source rest token
  have other (letter : CodeUnit) (notDigit : Number.isDigit letter = false) (notMinus : letter ≠ 45) :
      (letter == unit) = false := by
    rw [beq_eq_false_iff_ne]
    rintro rfl
    rcases isHead with minus | isDigit
    · exact notMinus minus
    · rw [notDigit] at isDigit
      cases isDigit
  have tText : text "true" = 116 :: text "rue" := by decide
  have fText : text "false" = 102 :: text "alse" := by decide
  have nText : text "null" = 110 :: text "ull" := by decide
  simp only [scanWord?, tText, fText, nText, List.isPrefixOf, other 116 (by decide) (by decide),
    other 102 (by decide) (by decide), other 110 (by decide) (by decide), Bool.false_and,
    Bool.false_eq_true, if_false]

private theorem readScalar_word (word : String) (value : Json) (length offset : Nat) (rest : Text)
    (isLength : (text word).length = length)
    (scanned : scanWord? (text word ++ rest) = some (value, length)) :
    ∃ after, readScalar dialect ⟨offset, text word ++ rest⟩ = .ok (value, ⟨after, rest⟩) := by
  refine ⟨offset + length, ?_⟩
  rw [readScalar, scanned]
  dsimp only
  rw [Cursor.advance, ← isLength, List.drop_left]

private theorem readScalar_number (number : Number) (source rest : Text) (offset : Nat)
    (token : NumberToken number source rest) (admitted : dialect.NumberAdmitted number)
    (avoids : Avoids isNumberUnit rest) :
    ∃ after, readScalar dialect ⟨offset, source⟩ = .ok (.number number, ⟨after, rest⟩) := by
  obtain ⟨length, scanned, dropped⟩ := scanNumber_complete number source rest token avoids
  have admits : ¬(dialect.rejectsNonFinite && !number.isFinite) = true := by
    intro refused
    obtain ⟨rejects, infinite⟩ := Bool.and_eq_true_iff.mp refused
    rw [admitted rejects] at infinite
    cases infinite
  refine ⟨offset + length, ?_⟩
  rw [readScalar, scanWord_number number source rest token, scanned]
  dsimp only
  rw [if_neg admits, Cursor.advance, dropped]

private theorem readValue_scalar (fuel : Nat) (cursor : Cursor) (unit : CodeUnit) (rest : Text)
    (isRest : (dialect.space cursor).rest = unit :: rest) (notObject : unit ≠ 123)
    (notArray : unit ≠ 91) (notString : unit ≠ 34) :
    readValue dialect (fuel + 1) cursor = readScalar dialect (dialect.space cursor) := by
  rw [readValue]
  dsimp only
  split
  · rename_i same
    exact absurd (List.cons.inj (isRest.symm.trans same)).1 notObject
  · rename_i same
    exact absurd (List.cons.inj (isRest.symm.trans same)).1 notArray
  · rename_i same
    exact absurd (List.cons.inj (isRest.symm.trans same)).1 notString
  · rfl

section

variable (fuel : Nat) (cursor : Cursor) (source : Text)

private theorem readValue_string (isRest : (dialect.space cursor).rest = 34 :: source) :
    readValue dialect (fuel + 1) cursor =
      (readString (dialect.space cursor) >>= fun token => .ok (.string token.1, token.2)) := by
  rw [readValue]
  dsimp only
  split
  · rename_i same
    cases isRest.symm.trans same
  · rename_i same
    cases isRest.symm.trans same
  · rfl
  · rename_i notString
    exact absurd isRest (notString source)

private theorem readValue_array (isRest : (dialect.space cursor).rest = 91 :: source) :
    readValue dialect (fuel + 1) cursor =
      if (dialect.space ((dialect.space cursor).advance 1)).rest.head? = some 93 then
        .ok (.array [], (dialect.space ((dialect.space cursor).advance 1)).advance 1)
      else readElements dialect fuel (dialect.space ((dialect.space cursor).advance 1)) [] := by
  rw [readValue]
  dsimp only
  split
  · rename_i same
    cases isRest.symm.trans same
  · rfl
  · rename_i same
    cases isRest.symm.trans same
  · rename_i notArray _
    exact absurd isRest (notArray source)

private theorem readValue_object (isRest : (dialect.space cursor).rest = 123 :: source) :
    readValue dialect (fuel + 1) cursor =
      if (dialect.space ((dialect.space cursor).advance 1)).rest.head? = some 125 then
        .ok (.object [] none, (dialect.space ((dialect.space cursor).advance 1)).advance 1)
      else
        readMembers dialect fuel (dialect.space ((dialect.space cursor).advance 1)) ([], none) [] := by
  rw [readValue]
  dsimp only
  split
  · rfl
  · rename_i same
    cases isRest.symm.trans same
  · rename_i same
    cases isRest.symm.trans same
  · rename_i notObject _ _
    exact absurd isRest (notObject source)

end

/-- A value that starts at the cursor, but for white space. -/
private theorem at_start (apart : dialect.SpacesApart) (offset : Nat) (before : Text)
    (unit : CodeUnit) (rest : Text) (printable : Printable unit)
    (space : Space dialect.isSpace before (unit :: rest)) :
    (dialect.space ⟨offset, before⟩).rest = unit :: rest :=
  dialect.space_of_space offset before (unit :: rest) space
    (dialect.noSpace_cons apart unit rest printable)

/-- A container's closing bracket straight after the opening one, or something else. -/
private theorem inside_of_rest (apart : dialect.SpacesApart) (cursor : Cursor) (opening : CodeUnit)
    (source start : Text) (isRest : cursor.rest = opening :: source) (unit : CodeUnit)
    (others : Text) (isStart : start = unit :: others) (printable : Printable unit)
    (space : Space dialect.isSpace source start) :
    (dialect.space (cursor.advance 1)).rest = start := by
  subst isStart
  have advanced := advance_of_rest cursor opening source isRest
  have stopped := dialect.at_start apart (cursor.advance 1).offset source unit others printable space
  rw [← advanced] at stopped
  exact stopped

private theorem elements_start {trees : List JsonTree} {source rest : Text}
    (each : Elements dialect.isSpace trees source rest) :
    ∃ unit others, Space dialect.isSpace source (unit :: others) ∧ Printable unit ∧ unit ≠ 93 := by
  have first (tree : JsonTree) (behind : Text)
      (spaced : Spaced dialect.isSpace tree source behind) :
      ∃ unit others, Space dialect.isSpace source (unit :: others) ∧ Printable unit ∧ unit ≠ 93 := by
    cases spaced with
    | mk _ _ start after _ space value _ =>
        obtain ⟨unit, others, rfl, printable, notClosed⟩ := dialect.value_head tree start after value
        exact ⟨unit, others, space, printable, notClosed⟩
  cases each with
  | last tree _ _ value => exact first tree _ value
  | more tree _ _ _ _ value _ => exact first tree _ value

private theorem members_start {members : List (Text × JsonTree)} {source rest : Text}
    (each : Members dialect.isSpace members source rest) :
    ∃ others, Space dialect.isSpace source (34 :: others) := by
  cases each with
  | last _ _ _ start _ _ _ before _ _ _ => exact ⟨start, before⟩
  | more _ _ _ _ start _ _ _ _ before _ _ _ _ => exact ⟨start, before⟩

/-- What the cursor is at leads to whatever a text leads to, but for white space. -/
private def LeadsAs (before source : Text) : Prop :=
  ∀ start, Space dialect.isSpace source start → dialect.NoSpace start →
    Space dialect.isSpace before start

private theorem leadsAs_space (cursor : Cursor) (source : Text) (isRest : cursor.rest = source) :
    dialect.LeadsAs (dialect.space cursor).rest source := by
  subst isRest
  intro start space noSpace
  have stopped := dialect.space_of_space cursor.offset cursor.rest start space noSpace
  have same : (dialect.space cursor).rest = start := stopped
  rw [same]
  exact .done start

private theorem noSpace_value (apart : dialect.SpacesApart) (tree : JsonTree) (source rest : Text)
    (value : Value dialect.isSpace tree source rest) : dialect.NoSpace source := by
  obtain ⟨unit, others, rfl, printable, _⟩ := dialect.value_head tree source rest value
  exact dialect.noSpace_cons apart unit others printable

private theorem readValue_word (apart : dialect.SpacesApart) (word : String) (value : Json)
    (length : Nat) (unit : CodeUnit) (letters rest before : Text) (fuel offset : Nat)
    (isWord : text word = unit :: letters) (isLength : (text word).length = length)
    (printable : Printable unit) (notObject : unit ≠ 123) (notArray : unit ≠ 91)
    (notString : unit ≠ 34)
    (scanned : scanWord? (text word ++ rest) = some (value, length))
    (space : Space dialect.isSpace before (text word ++ rest)) :
    ∃ after, readValue dialect (fuel + 1) ⟨offset, before⟩ = .ok (value, ⟨after, rest⟩) := by
  have whole : text word ++ rest = unit :: (letters ++ rest) := by rw [isWord, List.cons_append]
  have isRest := dialect.at_start apart offset before unit (letters ++ rest) printable (whole ▸ space)
  rw [dialect.readValue_scalar fuel _ unit _ isRest notObject notArray notString]
  rw [← whole] at isRest
  generalize dialect.space ⟨offset, before⟩ = start at isRest
  obtain ⟨position, source⟩ := start
  subst isRest
  exact dialect.readScalar_word word value length position rest isLength scanned

/-- What is read of a member from its value on. -/
private def readMemberValue (fuel : Nat) (cursor : Cursor) (object : List (Text × Json) × Option Json)
    (names : List Text) (name : Text) : Except ReadFault (Json × Cursor) := do
  let (value, afterValue) ← readValue dialect fuel cursor
  let object := dialect.assign object name value
  let (separator, after) := (dialect.space afterValue).next
  if separator = some 125 then .ok (.object object.1 object.2, after)
  else if separator ≠ some 44 then
    .error (.message after.offset (text "expected ',' or '\x7d'"))
  else readMembers dialect fuel after object (name :: names)

/-- A member's name and colon. -/
private theorem readName_complete (apart : dialect.SpacesApart) (fuel offset : Nat)
    (before source start afterName afterColon name : Text)
    (object : List (Text × Json) × Option Json) (names : List Text)
    (leads : dialect.LeadsAs before source) (quote : Space dialect.isSpace source (34 :: start))
    (isName : Characters name start afterName)
    (colon : Space dialect.isSpace afterName (58 :: afterColon))
    (fresh : dialect.rejectsRepeatedNames = true → name ∉ names) :
    ∃ named, readMembers dialect (fuel + 1) ⟨offset, before⟩ object names =
      dialect.readMemberValue fuel ⟨named, afterColon⟩ object names name := by
  have isRest := dialect.at_start apart offset before 34 start ⟨by decide, by decide⟩
    (leads _ quote (dialect.noSpace_cons apart 34 start ⟨by decide, by decide⟩))
  have notKnown : ¬(dialect.rejectsRepeatedNames && names.contains name) = true := by
    intro refused
    obtain ⟨rejects, known⟩ := Bool.and_eq_true_iff.mp refused
    exact fresh rejects (List.contains_iff_mem.mp known)
  rw [readMembers]
  generalize dialect.space ⟨offset, before⟩ = quoted at isRest
  obtain ⟨position, stripped⟩ := quoted
  subst isRest
  obtain ⟨ended, isToken⟩ := readString_of_characters position name start afterName isName
  have stopped := dialect.space_of_space ended afterName _ colon
    (dialect.noSpace_cons apart 58 afterColon ⟨by decide, by decide⟩)
  refine ⟨(dialect.space ⟨ended, afterName⟩).offset + 1, ?_⟩
  dsimp only
  rw [if_neg (by simp), isToken, except_ok_bind]
  dsimp only
  rw [if_neg notKnown, next_of_rest _ 58 afterColon stopped, if_neg (by simp)]
  rfl

mutual

theorem readValue_complete (apart : dialect.SpacesApart) :
    ∀ {tree : JsonTree} {source rest : Text}, Value dialect.isSpace tree source rest →
      dialect.Admits tree → Avoids isNumberUnit rest → ∀ (fuel offset : Nat) (before : Text),
        Space dialect.isSpace before source → 2 * source.length + 1 ≤ fuel →
          ∃ after, readValue dialect fuel ⟨offset, before⟩ =
            .ok (dialect.build tree, ⟨after, rest⟩)
  | _, _, _, .null rest, _, _, fuel + 1, offset, before, space, _ =>
      dialect.readValue_word apart "null" .null 4 110 (text "ull") rest before fuel offset
        (by decide) (by decide) ⟨by decide, by decide⟩ (by decide) (by decide) (by decide) rfl space
  | _, _, _, .false rest, _, _, fuel + 1, offset, before, space, _ =>
      dialect.readValue_word apart "false" (.bool false) 5 102 (text "alse") rest before fuel offset
        (by decide) (by decide) ⟨by decide, by decide⟩ (by decide) (by decide) (by decide) rfl space
  | _, _, _, .true rest, _, _, fuel + 1, offset, before, space, _ =>
      dialect.readValue_word apart "true" (.bool true) 4 116 (text "rue") rest before fuel offset
        (by decide) (by decide) ⟨by decide, by decide⟩ (by decide) (by decide) (by decide) rfl space
  | _, _, _, .number number source rest token, admits, avoids, fuel + 1, offset, before, space, _ => by
      obtain ⟨unit, others, rfl, isHead⟩ := numberToken_head number source rest token
      have other (bracket : CodeUnit) (notDigit : Number.isDigit bracket = false)
          (notMinus : bracket ≠ 45) : unit ≠ bracket := by
        rintro rfl
        rcases isHead with minus | isDigit
        · exact notMinus minus
        · rw [notDigit] at isDigit
          cases isDigit
      have printable : Printable unit := by
        rcases isHead with rfl | isDigit
        · exact ⟨by decide, by decide⟩
        · exact printable_digit unit isDigit
      have isRest := dialect.at_start apart offset before unit others printable space
      rw [dialect.readValue_scalar fuel _ unit _ isRest (other 123 (by decide) (by decide))
        (other 91 (by decide) (by decide)) (other 34 (by decide) (by decide))]
      generalize dialect.space ⟨offset, before⟩ = start at isRest
      obtain ⟨position, stripped⟩ := start
      subst isRest
      exact dialect.readScalar_number number _ rest position token admits avoids
  | _, _, _, .string value source rest token, _, _, fuel + 1, offset, before, space, _ => by
      have isRest := dialect.at_start apart offset before 34 source ⟨by decide, by decide⟩ space
      rw [dialect.readValue_string fuel _ source isRest]
      generalize dialect.space ⟨offset, before⟩ = start at isRest
      obtain ⟨position, stripped⟩ := start
      subst isRest
      obtain ⟨after, isToken⟩ := readString_of_characters position value source rest token
      refine ⟨after, ?_⟩
      rw [isToken]
      rfl
  | _, _, _, .emptyArray source rest space, _, _, fuel + 1, offset, before, outside, _ => by
      have isRest := dialect.at_start apart offset before 91 source ⟨by decide, by decide⟩ outside
      have closing := dialect.inside_of_rest apart _ 91 source _ isRest 93 rest rfl
        ⟨by decide, by decide⟩ space
      rw [dialect.readValue_array fuel _ source isRest, if_pos (by rw [closing]; rfl)]
      have ended := advance_of_rest _ 93 rest closing
      exact ⟨_, by rw [← ended]; rfl⟩
  | _, _, _, .array elements source rest each, admits, _, fuel + 1, offset, before, space, enough => by
      have isRest := dialect.at_start apart offset before 91 source ⟨by decide, by decide⟩ space
      obtain ⟨unit, others, inside, printable, notClosed⟩ := dialect.elements_start each
      have opened := dialect.inside_of_rest apart _ 91 source _ isRest unit others rfl printable inside
      have more : ¬(dialect.space ((dialect.space ⟨offset, before⟩).advance 1)).rest.head? =
          some 93 := by
        rw [opened]
        exact fun closed => notClosed (Option.some.inj closed)
      rw [dialect.readValue_array fuel _ source isRest, if_neg more, build]
      have leads := dialect.leadsAs_space _ source (advance_of_rest _ 91 source isRest)
      rw [List.length_cons] at enough
      exact readElements_complete apart each admits fuel _ _ [] leads (by omega)
  | _, _, _, .emptyObject source rest space, _, _, fuel + 1, offset, before, outside, _ => by
      have isRest := dialect.at_start apart offset before 123 source ⟨by decide, by decide⟩ outside
      have closing := dialect.inside_of_rest apart _ 123 source _ isRest 125 rest rfl
        ⟨by decide, by decide⟩ space
      rw [dialect.readValue_object fuel _ source isRest, if_pos (by rw [closing]; rfl)]
      have ended := advance_of_rest _ 125 rest closing
      exact ⟨_, by rw [← ended]; rfl⟩
  | _, _, _, .object members source rest each, admits, _, fuel + 1, offset, before, space, enough => by
      have isRest := dialect.at_start apart offset before 123 source ⟨by decide, by decide⟩ space
      obtain ⟨others, inside⟩ := dialect.members_start each
      have opened := dialect.inside_of_rest apart _ 123 source _ isRest 34 others rfl
        ⟨by decide, by decide⟩ inside
      have more : ¬(dialect.space ((dialect.space ⟨offset, before⟩).advance 1)).rest.head? =
          some 125 := by
        rw [opened]
        exact nofun
      rw [dialect.readValue_object fuel _ source isRest, if_neg more, build]
      have leads := dialect.leadsAs_space _ source (advance_of_rest _ 123 source isRest)
      rw [List.length_cons] at enough
      exact readMembers_complete apart each admits.2 fuel _ _ ([], none) []
        (fun rejects => ⟨admits.1 rejects, fun _ _ => List.not_mem_nil⟩) leads (by omega)

theorem readElements_complete (apart : dialect.SpacesApart) :
    ∀ {trees : List JsonTree} {source rest : Text},
      Elements dialect.isSpace trees source (93 :: rest) →
        JsonTree.EachElement dialect.NumberAdmitted dialect.NamesAdmitted trees →
          ∀ (fuel offset : Nat) (before : Text) (elements : List Json),
            dialect.LeadsAs before source → 2 * source.length + 2 ≤ fuel →
              ∃ after, readElements dialect fuel ⟨offset, before⟩ elements =
                .ok (.array (elements.reverse ++ dialect.buildEach trees), ⟨after, rest⟩)
  | _, _, _, .last tree source _ (.mk _ _ start behind _ outside value closing), admits, fuel + 1,
      offset, before, elements, leads, enough => by
      have shorter := length_space source start outside
      obtain ⟨position, isRead⟩ := readValue_complete apart value admits.1
        (dialect.avoids_of_space apart behind _ closing (avoids_cons 93 _ rfl)) fuel offset before
        (leads start outside (dialect.noSpace_value apart tree start behind value)) (by omega)
      have stopped := dialect.space_of_space position behind _ closing
        (dialect.noSpace_cons apart 93 _ ⟨by decide, by decide⟩)
      rw [readElements, isRead, except_ok_bind]
      dsimp only
      rw [next_of_rest _ 93 _ stopped, if_pos rfl, List.reverse_cons]
      exact ⟨_, rfl⟩
  | _, _, _, .more tree others source between _ (.mk _ _ start behind _ outside value comma) each,
      admits, fuel + 1, offset, before, elements, leads, enough => by
      have first := length_space source start outside
      have second := length_value value
      have third := length_space behind _ comma
      rw [List.length_cons] at third
      obtain ⟨position, isRead⟩ := readValue_complete apart value admits.1
        (dialect.avoids_of_space apart behind _ comma (avoids_cons 44 _ rfl)) fuel offset before
        (leads start outside (dialect.noSpace_value apart tree start behind value)) (by omega)
      have stopped := dialect.space_of_space position behind _ comma
        (dialect.noSpace_cons apart 44 _ ⟨by decide, by decide⟩)
      obtain ⟨after, isRest⟩ := readElements_complete apart each admits.2 fuel
        ((dialect.space ⟨position, behind⟩).offset + 1) between (dialect.build tree :: elements)
        (fun _ space _ => space) (by omega)
      refine ⟨after, ?_⟩
      rw [readElements, isRead, except_ok_bind]
      dsimp only
      rw [next_of_rest _ 44 _ stopped, if_neg (by simp), if_neg (by simp), isRest,
        List.reverse_cons, List.append_assoc]
      rfl

theorem readMembers_complete (apart : dialect.SpacesApart) :
    ∀ {members : List (Text × JsonTree)} {source rest : Text},
      Members dialect.isSpace members source (125 :: rest) →
        JsonTree.EachMember dialect.NumberAdmitted dialect.NamesAdmitted members →
          ∀ (fuel offset : Nat) (before : Text) (object : List (Text × Json) × Option Json)
            (names : List Text),
            (dialect.rejectsRepeatedNames = true → (members.map Prod.fst).Nodup ∧
              ∀ name ∈ members.map Prod.fst, name ∉ names) →
            dialect.LeadsAs before source → 2 * source.length + 2 ≤ fuel →
              ∃ after, readMembers dialect fuel ⟨offset, before⟩ object names =
                .ok (.object (dialect.assignAll object (dialect.buildMembers members)).1
                  (dialect.assignAll object (dialect.buildMembers members)).2, ⟨after, rest⟩)
  | _, _, _, .last name tree source start afterName afterColon _ quote isName colon
      (.mk _ _ first behind _ outside value closing), admits, fuel + 1, offset, before, object, names,
      fresh, leads, enough => by
      have quoteLength := length_space source _ quote
      have nameLength := length_characters name start afterName isName
      have colonLength := length_space afterName _ colon
      have firstLength := length_space afterColon first outside
      rw [List.length_cons] at quoteLength colonLength
      obtain ⟨named, isNamed⟩ := dialect.readName_complete apart fuel offset before source start
        afterName afterColon name object names leads quote isName colon
        (fun rejects => (fresh rejects).2 name List.mem_cons_self)
      obtain ⟨position, isRead⟩ := readValue_complete apart value admits.1
        (dialect.avoids_of_space apart behind _ closing (avoids_cons 125 _ rfl)) fuel named afterColon
        outside (by omega)
      have stopped := dialect.space_of_space position behind _ closing
        (dialect.noSpace_cons apart 125 _ ⟨by decide, by decide⟩)
      rw [isNamed, readMemberValue, isRead, except_ok_bind]
      dsimp only
      rw [next_of_rest _ 125 _ stopped, if_pos rfl]
      exact ⟨_, rfl⟩
  | _, _, _, .more name tree others source start afterName afterColon between _ quote isName colon
      (.mk _ _ first behind _ outside value comma) each, admits, fuel + 1, offset, before, object,
      names, fresh, leads, enough => by
      have quoteLength := length_space source _ quote
      have nameLength := length_characters name start afterName isName
      have colonLength := length_space afterName _ colon
      have firstLength := length_space afterColon first outside
      have valueLength := length_value value
      have commaLength := length_space behind _ comma
      rw [List.length_cons] at quoteLength colonLength commaLength
      obtain ⟨named, isNamed⟩ := dialect.readName_complete apart fuel offset before source start
        afterName afterColon name object names leads quote isName colon
        (fun rejects => (fresh rejects).2 name List.mem_cons_self)
      obtain ⟨position, isRead⟩ := readValue_complete apart value admits.1
        (dialect.avoids_of_space apart behind _ comma (avoids_cons 44 _ rfl)) fuel named afterColon
        outside (by omega)
      have stopped := dialect.space_of_space position behind _ comma
        (dialect.noSpace_cons apart 44 _ ⟨by decide, by decide⟩)
      have unknown (rejects : dialect.rejectsRepeatedNames = true) :
          (others.map Prod.fst).Nodup ∧ ∀ other ∈ others.map Prod.fst, other ∉ name :: names := by
        obtain ⟨nodup, unknown⟩ := fresh rejects
        obtain ⟨notLater, later⟩ := List.nodup_cons.mp nodup
        refine ⟨later, fun other member known => ?_⟩
        cases known with
        | head => exact notLater member
        | tail _ known => exact unknown other (List.mem_cons_of_mem _ member) known
      obtain ⟨after, isRest⟩ := readMembers_complete apart each admits.2 fuel
        ((dialect.space ⟨position, behind⟩).offset + 1) between
        (dialect.assign object name (dialect.build tree)) (name :: names) unknown
        (fun _ space _ => space) (by omega)
      refine ⟨after, ?_⟩
      rw [isNamed, readMemberValue, isRead, except_ok_bind]
      dsimp only
      rw [next_of_rest _ 44 _ stopped, if_neg (by simp), if_neg (by simp), isRest]
      rfl

end

/-- The reader takes the texts of the grammar that it admits, and builds what they say. -/
theorem readJson_iff (apart : dialect.SpacesApart) (source : Text) (value : Json) :
    readJson dialect source = .ok value ↔
      ∃ tree, IsText dialect.isSpace tree source ∧ dialect.Admits tree ∧
        value = dialect.build tree := by
  refine ⟨dialect.isText_of_readJson source value, ?_⟩
  rintro ⟨tree, ⟨_, _, start, after, _, before, isValue, behind⟩, admits, rfl⟩
  have shorter := length_space source start before
  obtain ⟨position, isRead⟩ := dialect.readValue_complete apart isValue admits
    (dialect.avoids_of_space apart after [] behind nofun) (2 * source.length + 2) 0 source before
    (by omega)
  have stopped := dialect.space_of_space position after [] behind nofun
  rw [readJson, isRead, except_ok_bind]
  dsimp only
  rw [if_neg (not_not_intro stopped)]

end Dialect

/-! ## One tree a text -/

/-- A reader that refuses nothing and keeps every member. -/
private def keepingAll (isSpace : CodeUnit → Bool) : Dialect where
  isSpace := isSpace
  rejectsRepeatedNames := false
  rejectsNonFinite := false
  assign := fun object key value => (object.1 ++ [(key, value)], object.2)

private theorem assignAll_keepingAll (isSpace : CodeUnit → Bool)
    (object : List (Text × Json) × Option Json) (members : List (Text × Json)) :
    (keepingAll isSpace).assignAll object members = (object.1 ++ members, object.2) := by
  induction members generalizing object with
  | nil =>
      rw [List.append_nil]
      rfl
  | cons member rest ih =>
      have step : (keepingAll isSpace).assignAll object (member :: rest) =
          (keepingAll isSpace).assignAll (object.1 ++ [(member.1, member.2)], object.2) rest := rfl
      rw [step, ih, List.append_assoc]
      rfl

section

variable (isSpace : CodeUnit → Bool)

mutual

private theorem build_injective (left right : JsonTree)
    (same : (keepingAll isSpace).build left = (keepingAll isSpace).build right) : left = right := by
  cases left with
  | array elements =>
      cases right with
      | array others =>
          rw [Dialect.build, Dialect.build, Json.array.injEq] at same
          rw [buildEach_injective elements others same]
      | _ => simp [Dialect.build] at same
  | object members =>
      cases right with
      | object others =>
          simp only [Dialect.build, assignAll_keepingAll, List.nil_append, Json.object.injEq,
            and_true] at same
          rw [buildMembers_injective members others same]
      | _ => simp [Dialect.build] at same
  | _ => cases right <;> simp [Dialect.build] at same ⊢ <;> exact same

private theorem buildEach_injective (left right : List JsonTree)
    (same : (keepingAll isSpace).buildEach left = (keepingAll isSpace).buildEach right) :
    left = right := by
  cases left with
  | nil =>
      cases right with
      | nil => rfl
      | cons _ _ => simp [Dialect.buildEach] at same
  | cons element rest =>
      cases right with
      | nil => simp [Dialect.buildEach] at same
      | cons other others =>
          rw [Dialect.buildEach, Dialect.buildEach, List.cons.injEq] at same
          rw [build_injective element other same.1, buildEach_injective rest others same.2]

private theorem buildMembers_injective (left right : List (Text × JsonTree))
    (same : (keepingAll isSpace).buildMembers left = (keepingAll isSpace).buildMembers right) :
    left = right := by
  cases left with
  | nil =>
      cases right with
      | nil => rfl
      | cons member _ =>
          obtain ⟨_, _⟩ := member
          simp [Dialect.buildMembers] at same
  | cons member rest =>
      obtain ⟨name, value⟩ := member
      cases right with
      | nil => simp [Dialect.buildMembers] at same
      | cons other others =>
          obtain ⟨otherName, otherValue⟩ := other
          rw [Dialect.buildMembers, Dialect.buildMembers, List.cons.injEq, Prod.mk.injEq] at same
          rw [same.1.1, build_injective value otherValue same.1.2,
            buildMembers_injective rest others same.2]

end

/-- A text says one thing. -/
theorem isText_unique (apart : ∀ unit, isSpace unit = true → unit.toNat < 33 ∨ 126 < unit.toNat)
    (left right : JsonTree) (source : Text) (leftText : IsText isSpace left source)
    (rightText : IsText isSpace right source) : left = right := by
  have admits (tree : JsonTree) : (keepingAll isSpace).Admits tree :=
    JsonTree.each_of_forall (fun _ => nofun) (fun _ => nofun) tree
  have leftRead := ((keepingAll isSpace).readJson_iff apart source _).mpr
    ⟨left, leftText, admits left, rfl⟩
  have rightRead := ((keepingAll isSpace).readJson_iff apart source _).mpr
    ⟨right, rightText, admits right, rfl⟩
  rw [leftRead] at rightRead
  exact build_injective isSpace left right (Except.ok.inj rightRead)

end

end VgiWorker.Js
