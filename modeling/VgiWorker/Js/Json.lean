import VgiWorker.Js.Number
import VgiWorker.Js.OrderedMap

/-!
# JSON texts

The values and the grammar of JSON, with the reader parameterised by the points
where readers differ. A reader's position is the offset of the next code unit
together with the text from there on.
-/

set_option autoImplicit false

namespace VgiWorker.Js

/-- The values a JSON reader builds. An object has its own members, in the order they
were first defined, and a prototype that replaces `Object.prototype` when set. -/
inductive Json where
  | null
  | bool (value : Bool)
  | number (value : Number)
  | string (value : Text)
  | array (elements : List Json)
  | object (members : List (Text × Json)) (prototype : Option Json)

namespace Json

/-- `value[key]`, for a `key` that no built-in prototype defines. -/
def get? (value : Json) (key : Text) : Option Json :=
  match value with
  | .object members none => lookupEntry members key
  | .object members (some parent) => (lookupEntry members key).or (get? parent key)
  | _ => none

/-- A property name that is an array index. -/
def index? (key : Text) : Option Nat :=
  if key ≠ [] ∧ key.all Number.isDigit ∧ (key = text "0" ∨ key.head? ≠ some 48) ∧
      Number.natOfDigits key < 2 ^ 32 - 1 then
    some (Number.natOfDigits key)
  else
    none

def insertIndex (key : Text) : List Text → List Text
  | [] => [key]
  | first :: rest =>
      if (index? key).getD 0 ≤ (index? first).getD 0 then key :: first :: rest
      else first :: insertIndex key rest

/-- `Object.keys(value)`: the array indices in ascending order, then the other names in
the order they were defined. -/
def ownKeys : Json → List Text
  | .object members _ =>
      let names := members.map Prod.fst
      (names.filter fun name => (index? name).isSome).foldr insertIndex [] ++
        names.filter fun name => (index? name).isNone
  | _ => []

end Json

/-! ## Readers -/

structure Cursor where
  offset : Nat
  rest : Text

namespace Cursor

/-- `text[offset++]`; the offset moves on past the end as well. -/
def next (cursor : Cursor) : Option CodeUnit × Cursor :=
  (cursor.rest.head?, ⟨cursor.offset + 1, cursor.rest.tail⟩)

def advance (cursor : Cursor) (count : Nat) : Cursor :=
  ⟨cursor.offset + count, cursor.rest.drop count⟩

end Cursor

inductive ReadFault where
  | message (offset : Nat) (message : Text)
  | outOfFuel

/-- What tells one JSON reader from another. -/
structure Dialect where
  isSpace : CodeUnit → Bool
  rejectsRepeatedNames : Bool
  rejectsNonFinite : Bool
  /-- Give the object under construction its next member. -/
  assign : List (Text × Json) × Option Json → Text → Json → List (Text × Json) × Option Json

/-- `CreateDataProperty`: every name is an own property. -/
def defineProperty (object : List (Text × Json) × Option Json) (key : Text) (value : Json) :
    List (Text × Json) × Option Json :=
  (setEntry object.1 key value, object.2)

/-- `object[key] = value`: under `__proto__` an object or null becomes the prototype and
any other value is dropped. -/
def assignProperty (object : List (Text × Json) × Option Json) (key : Text) (value : Json) :
    List (Text × Json) × Option Json :=
  if key = text "__proto__" then
    match value with
    | .object _ _ | .array _ | .null => (object.1, some value)
    | _ => object
  else
    defineProperty object key value

/-- Whitespace of the JSON grammar. -/
def isJsonSpace (unit : CodeUnit) : Bool :=
  unit == 0x20 || unit == 0x09 || unit == 0x0a || unit == 0x0d

/-- `JSON.parse`. -/
def ecmaScript : Dialect where
  isSpace := isJsonSpace
  rejectsRepeatedNames := false
  rejectsNonFinite := false
  assign := defineProperty

namespace Dialect

variable (dialect : Dialect)

def space (cursor : Cursor) : Cursor :=
  cursor.advance (cursor.rest.takeWhile dialect.isSpace).length

end Dialect

/-! ### String tokens -/

def hexValue? (unit : CodeUnit) : Option Nat :=
  let code := unit.toNat
  if 48 ≤ code ∧ code ≤ 57 then some (code - 48)
  else if 97 ≤ code ∧ code ≤ 102 then some (code - 87)
  else if 65 ≤ code ∧ code ≤ 70 then some (code - 55)
  else none

/-- The code unit a single-character escape stands for. -/
def simpleEscape? (unit : CodeUnit) : Option CodeUnit :=
  if unit = 34 ∨ unit = 92 ∨ unit = 47 then some unit
  else if unit = 98 then some 8
  else if unit = 102 then some 12
  else if unit = 110 then some 10
  else if unit = 114 then some 13
  else if unit = 116 then some 9
  else none

/-- The contents of a string token between its quotes; `none` on a bad escape, a control
character or a quote. -/
def unescape? : Text → Option Text
  | [] => some []
  | 92 :: 117 :: a :: b :: c :: d :: rest => do
      let high ← hexValue? a
      let second ← hexValue? b
      let third ← hexValue? c
      let low ← hexValue? d
      let tail ← unescape? rest
      some (UInt16.ofNat (high * 4096 + second * 256 + third * 16 + low) :: tail)
  | 92 :: escape :: rest => do
      let unit ← simpleEscape? escape
      let tail ← unescape? rest
      some (unit :: tail)
  | unit :: rest => do
      if unit.toNat < 0x20 ∨ unit = 34 ∨ unit = 92 then none
      else
        let tail ← unescape? rest
        some (unit :: tail)

/-- `JSON.parse` on a whole string token. -/
def parseStringToken? : Text → Option Text
  | 34 :: rest =>
      match rest.reverse with
      | 34 :: inner => unescape? inner.reverse
      | _ => none
  | _ => none

/-- How a string token ends. -/
inductive TokenEnd where
  | quote
  | control
  | unterminated

/-- Read up to the closing quote; the count is of the code units consumed. -/
def scanString : Text → Bool → Nat → Nat × TokenEnd
  | [], _, count => (count, .unterminated)
  | unit :: rest, escaped, count =>
      if !escaped && unit == 34 then (count + 1, .quote)
      else if !escaped && unit.toNat < 0x20 then (count + 1, .control)
      else scanString rest (!escaped && unit == 92) (count + 1)

/-- A string token at the cursor, whose next code unit is its opening quote. -/
def readString (cursor : Cursor) : Except ReadFault (Text × Cursor) :=
  let (count, ended) := scanString cursor.rest.tail false 0
  let after := cursor.advance (count + 1)
  match ended with
  | .quote =>
      match parseStringToken? (cursor.rest.take (count + 1)) with
      | some value => .ok (value, after)
      | none => .error (.message after.offset (text "invalid string escape"))
  | .control => .error (.message after.offset (text "control character in string"))
  | .unterminated => .error (.message after.offset (text "unterminated string"))

/-! ### Numbers -/

/-- The whole part of a number: a zero, or digits that do not start with one. -/
def wholePart? (rest : Text) : Option Text :=
  match rest with
  | 48 :: _ => some [48]
  | unit :: _ => if Number.isDigit unit then some (rest.takeWhile Number.isDigit) else none
  | [] => none

/-- The digits after a decimal point, when there are any. -/
def fractionPart (rest : Text) : Text :=
  match rest with
  | 46 :: digits => digits.takeWhile Number.isDigit
  | _ => []

/-- The exponent's value and its length with the marker, when it has digits. -/
def exponentPart (rest : Text) : Int × Nat :=
  match rest with
  | marker :: after =>
      let (negative, unsigned) := Number.takeSign after
      let digits := unsigned.takeWhile Number.isDigit
      if (marker = 101 ∨ marker = 69) ∧ digits ≠ [] then
        (if negative then -(Number.natOfDigits digits : Int) else Number.natOfDigits digits,
          1 + (after.length - unsigned.length) + digits.length)
      else (0, 0)
  | [] => (0, 0)

/-- The longest number at the start of the text, with its length. -/
def scanNumber? (rest : Text) : Option (Number × Nat) :=
  let (negative, unsigned) :=
    match rest with
    | 45 :: unsigned => (true, unsigned)
    | _ => (false, rest)
  match wholePart? unsigned with
  | none => none
  | some whole =>
      let afterWhole := unsigned.drop whole.length
      let fraction := fractionPart afterWhole
      let fractionLength := if fraction = [] then 0 else fraction.length + 1
      let (exponent, exponentLength) := exponentPart (afterWhole.drop fractionLength)
      some (Number.ofDecimal negative whole fraction exponent,
        rest.length - unsigned.length + whole.length + fractionLength + exponentLength)

/-- The literal names, tried in turn. -/
def scanWord? (rest : Text) : Option (Json × Nat) :=
  if (text "true").isPrefixOf rest then some (.bool true, 4)
  else if (text "false").isPrefixOf rest then some (.bool false, 5)
  else if (text "null").isPrefixOf rest then some (.null, 4)
  else none

/-- A literal name or a number. -/
def readScalar (dialect : Dialect) (cursor : Cursor) : Except ReadFault (Json × Cursor) :=
  match scanWord? cursor.rest with
  | some (value, length) => .ok (value, cursor.advance length)
  | none =>
      match scanNumber? cursor.rest with
      | some (number, length) =>
          let after := cursor.advance length
          if dialect.rejectsNonFinite && !number.isFinite then
            .error (.message after.offset (text "non-finite number"))
          else
            .ok (.number number, after)
      | none => .error (.message cursor.offset (text "expected a JSON value"))

/-! ### Values -/

/-- `JSON.stringify` of a name, as the repeated-name error shows it. -/
def quoteUnit (unit : CodeUnit) : Text :=
  let hexDigit (value : Nat) : CodeUnit :=
    if value % 16 < 10 then UInt16.ofNat (48 + value % 16) else UInt16.ofNat (87 + value % 16)
  let code := unit.toNat
  if code = 34 then text "\\\""
  else if code = 92 then text "\\\\"
  else if code = 8 then text "\\b"
  else if code = 12 then text "\\f"
  else if code = 10 then text "\\n"
  else if code = 13 then text "\\r"
  else if code = 9 then text "\\t"
  else if code < 0x20 ∨ (0xd800 ≤ code ∧ code < 0xe000) then
    text "\\u" ++ [hexDigit (code / 4096), hexDigit (code / 256), hexDigit (code / 16),
      hexDigit code]
  else [unit]

def quoteText : Text → Text
  | [] => []
  | high :: low :: rest =>
      if isHighSurrogate high && isLowSurrogate low then high :: low :: quoteText rest
      else quoteUnit high ++ quoteText (low :: rest)
  | [unit] => quoteUnit unit

def stringifyText (value : Text) : Text :=
  text "\"" ++ quoteText value ++ text "\""

mutual

def readValue (dialect : Dialect) : Nat → Cursor → Except ReadFault (Json × Cursor)
  | 0, _ => .error .outOfFuel
  | fuel + 1, cursor =>
      let cursor := dialect.space cursor
      match cursor.rest with
      | 123 :: _ =>
          let inside := dialect.space (cursor.advance 1)
          if inside.rest.head? = some 125 then
            .ok (.object [] none, inside.advance 1)
          else
            readMembers dialect fuel inside ([], none) []
      | 91 :: _ =>
          let inside := dialect.space (cursor.advance 1)
          if inside.rest.head? = some 93 then
            .ok (.array [], inside.advance 1)
          else
            readElements dialect fuel inside []
      | 34 :: _ => do
          let (value, after) ← readString cursor
          .ok (.string value, after)
      | _ => readScalar dialect cursor

def readMembers (dialect : Dialect) : Nat → Cursor → List (Text × Json) × Option Json →
    List Text → Except ReadFault (Json × Cursor)
  | 0, _, _, _ => .error .outOfFuel
  | fuel + 1, cursor, object, names => do
      let cursor := dialect.space cursor
      if cursor.rest.head? ≠ some 34 then
        .error (.message cursor.offset (text "expected object key"))
      else
        let (key, afterKey) ← readString cursor
        if dialect.rejectsRepeatedNames && names.contains key then
          .error (.message afterKey.offset (text "duplicate object key " ++ stringifyText key))
        else
          let (colon, afterColon) := (dialect.space afterKey).next
          if colon ≠ some 58 then
            .error (.message afterColon.offset (text "expected ':'"))
          else
            let (value, afterValue) ← readValue dialect fuel afterColon
            let object := dialect.assign object key value
            let (separator, after) := (dialect.space afterValue).next
            if separator = some 125 then .ok (.object object.1 object.2, after)
            else if separator ≠ some 44 then
              .error (.message after.offset (text "expected ',' or '\x7d'"))
            else readMembers dialect fuel after object (key :: names)

/-- The elements read so far are in reverse. -/
def readElements (dialect : Dialect) : Nat → Cursor → List Json →
    Except ReadFault (Json × Cursor)
  | 0, _, _ => .error .outOfFuel
  | fuel + 1, cursor, elements => do
      let (value, afterValue) ← readValue dialect fuel cursor
      let (separator, after) := (dialect.space afterValue).next
      if separator = some 93 then .ok (.array (value :: elements).reverse, after)
      else if separator ≠ some 44 then
        .error (.message after.offset (text "expected ',' or ']'"))
      else readElements dialect fuel after (value :: elements)

end

/-- Read a whole text as one JSON value. -/
def readJson (dialect : Dialect) (source : Text) : Except ReadFault Json := do
  let (value, after) ← readValue dialect (2 * source.length + 2) ⟨0, source⟩
  let trailing := dialect.space after
  if trailing.rest ≠ [] then .error (.message trailing.offset (text "trailing JSON data"))
  else .ok value

end VgiWorker.Js
