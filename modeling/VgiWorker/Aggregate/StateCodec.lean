import VgiWorker.Data.Result
import VgiWorker.Js.Json
import VgiWorker.Js.NumberProperties

/-!
# Persisted aggregate state

The JSON files that group states and the bind context are kept in. A text is
taken as the value tree it denotes.
-/

set_option autoImplicit false

namespace VgiWorker.Aggregate

open VgiWorker.Js

/-- The values an aggregate keeps. An object has its own enumerable members in property order;
of an instance of a class, `visited` is what `JSON.stringify` goes on with: the result of
`toJSON`, or the instance's own enumerable members. -/
inductive StateValue where
  | null
  | bool (value : Bool)
  | number (value : Number)
  | bigint (value : Int)
  | string (value : Text)
  | array (elements : List StateValue)
  | object (members : List (Text × StateValue))
  | classInstance (className : Text) (visited : StateValue)

inductive JsonFault where
  /-- `BigInt(text)` on a text that is no integer. -/
  | syntaxError
  deriving DecidableEq

def bigintMarker : Text :=
  text "__bigint__"

def jsonReplacer : StateValue → StateValue
  | .bigint value => .object [(bigintMarker, .string (Number.decimalInt value))]
  | value => value

/-- A number's text; the sign of a zero is not written. -/
def stringifyNumber : Number → Json
  | .finite value => .number (.finite value)
  | .negativeZero => .number Number.zero
  | .nan => .null
  | .infinity _ => .null

mutual

/-- `JSON.stringify(value, jsonReplacer)`. -/
def stringify : StateValue → Json
  | .null => .null
  | .bool value => .bool value
  | .number value => stringifyNumber value
  -- The replacer's object, whose string it leaves alone.
  | .bigint value => .object [(bigintMarker, .string (Number.decimalInt value))] none
  | .string value => .string value
  | .array elements => .array (stringifyElements elements)
  | .object members => .object (stringifyMembers members) none
  | .classInstance _ visited => stringify visited

def stringifyElements : List StateValue → List Json
  | [] => []
  | element :: rest => stringify element :: stringifyElements rest

def stringifyMembers : List (Text × StateValue) → List (Text × Json)
  | [] => []
  | (key, value) :: rest => (key, stringify value) :: stringifyMembers rest

end

def jsonReviver : StateValue → Except JsonFault StateValue
  | .object members =>
      match lookupEntry members bigintMarker with
      | some (.string digits) =>
          match Number.bigIntOfText? digits with
          | some value => .ok (.bigint value)
          | none => .error .syntaxError
      | _ => .ok (.object members)
  | value => .ok value

mutual

/-- `JSON.parse(text, jsonReviver)`: members and elements are revived before what holds them. -/
def parse : Json → Except JsonFault StateValue
  | .null => jsonReviver .null
  | .bool value => jsonReviver (.bool value)
  | .number value => jsonReviver (.number value)
  | .string value => jsonReviver (.string value)
  | .array elements => do
      let elements ← parseElements elements
      jsonReviver (.array elements)
  | .object members _ => do
      let members ← parseMembers members
      jsonReviver (.object members)

def parseElements : List Json → Except JsonFault (List StateValue)
  | [] => .ok []
  | element :: rest => do
      let element ← parse element
      let rest ← parseElements rest
      .ok (element :: rest)

def parseMembers : List (Text × Json) → Except JsonFault (List (Text × StateValue))
  | [] => .ok []
  | (key, value) :: rest => do
      let value ← parse value
      let rest ← parseMembers rest
      .ok ((key, value) :: rest)

end

/-- `atomicWriteJson`: the file's text. -/
def writeJson (value : StateValue) : Json :=
  stringify value

/-- `tryReadJson`; no file is no value. -/
def tryReadJson (file : Option Json) : Except JsonFault (Option StateValue) :=
  match file with
  | none => .ok none
  | some written => some <$> parse written

/-! ## The bind context -/

/-- The container of a call's arguments, an instance of the class `Arguments`. -/
structure BoundArguments where
  positional : List StateValue
  named : List (Text × StateValue)
  argumentsSchema : StateValue

/-- A `Map` has no enumerable members of its own. -/
def BoundArguments.value (bound : BoundArguments) : StateValue :=
  .classInstance (text "Arguments") (.object
    [(text "positional", .array bound.positional),
      (text "named", .classInstance (text "Map") (.object [])),
      (text "argumentsSchema", bound.argumentsSchema)])

/-- What `aggregate_bind` stores. -/
structure BindParams where
  args : List (Text × StateValue)
  arguments : BoundArguments
  inputSchema : StateValue
  secrets : List (Text × StateValue)
  argumentNames : StateValue

def BindParams.value (params : BindParams) : StateValue :=
  .object [(text "args", .object params.args), (text "arguments", params.arguments.value),
    (text "inputSchema", params.inputSchema), (text "settings", .object []),
    (text "secrets", .object params.secrets), (text "argumentNames", params.argumentNames)]

/-! ## What survives -/

mutual

/-- The values that come back as they were: every number is finite and no negative zero, no
object has a string under the marker, and no class instance is among them. -/
def Lossless : StateValue → Prop
  | .null => True
  | .bool _ => True
  | .number value => value.isFinite = true ∧ value ≠ .negativeZero
  | .bigint _ => True
  | .string _ => True
  | .array elements => LosslessElements elements
  | .object members =>
      LosslessMembers members ∧ ∀ digits, lookupEntry members bigintMarker ≠ some (.string digits)
  | .classInstance _ _ => False

def LosslessElements : List StateValue → Prop
  | [] => True
  | element :: rest => Lossless element ∧ LosslessElements rest

def LosslessMembers : List (Text × StateValue) → Prop
  | [] => True
  | (_, value) :: rest => Lossless value ∧ LosslessMembers rest

end

/-! ## Round trips -/

/-- `JSON.stringify` goes on with what the replacer returns. -/
theorem stringify_jsonReplacer (value : StateValue) :
    stringify (jsonReplacer value) = stringify value := by
  cases value <;> rfl

/-! ## Into the file and back -/

private theorem jsonReviver_object (members : List (Text × StateValue)) :
    jsonReviver (.object members) =
      match lookupEntry members bigintMarker with
      | some (.string digits) =>
          match Number.bigIntOfText? digits with
          | some value => .ok (.bigint value)
          | none => .error .syntaxError
      | _ => .ok (.object members) :=
  rfl

private theorem jsonReviver_unmarked (members : List (Text × StateValue))
    (unmarked : ∀ digits, lookupEntry members bigintMarker ≠ some (.string digits)) :
    jsonReviver (.object members) = .ok (.object members) := by
  rw [jsonReviver_object]
  split
  · next digits marked => exact absurd marked (unmarked digits)
  · rfl

private theorem unmarked_of_jsonReviver (members members' : List (Text × StateValue))
    (revived : jsonReviver (.object members) = .ok (.object members')) :
    members = members' ∧ ∀ digits, lookupEntry members bigintMarker ≠ some (.string digits) := by
  rw [jsonReviver_object] at revived
  split at revived
  · split at revived <;> cases revived
  · next unmarked =>
    cases revived
    exact ⟨rfl, fun digits marked => unmarked digits marked⟩

private theorem parse_bigint (value : Int) : parse (stringify (.bigint value)) = .ok (.bigint value) := by
  have marked : parse (stringify (.bigint value)) =
      jsonReviver (.object [(bigintMarker, .string (Number.decimalInt value))]) := rfl
  have found : lookupEntry [(bigintMarker, StateValue.string (Number.decimalInt value))] bigintMarker =
      some (.string (Number.decimalInt value)) := if_pos rfl
  rw [marked, jsonReviver_object, found]
  simp only [Number.bigIntOfText?_decimalInt]

private theorem parse_number (value : Number) (kept : value.isFinite = true ∧ value ≠ .negativeZero) :
    parse (stringify (.number value)) = .ok (.number value) := by
  cases value with
  | nan => cases kept.1
  | infinity negative => cases kept.1
  | negativeZero => exact absurd rfl kept.2
  | finite value => rfl

mutual

theorem parse_stringify : ∀ value : StateValue, Lossless value → parse (stringify value) = .ok value
  | .null, _ => rfl
  | .bool _, _ => rfl
  | .number value, kept => parse_number value kept
  | .bigint value, _ => parse_bigint value
  | .string _, _ => rfl
  | .array elements, kept => by
      rw [stringify, parse, parseElements_stringify elements kept]
      rfl
  | .object members, kept => by
      rw [stringify, parse, parseMembers_stringify members kept.1]
      exact jsonReviver_unmarked members kept.2
  | .classInstance _ _, kept => kept.elim

theorem parseElements_stringify : ∀ elements : List StateValue, LosslessElements elements →
    parseElements (stringifyElements elements) = .ok elements
  | [], _ => rfl
  | element :: rest, kept => by
      rw [stringifyElements, parseElements, parse_stringify element kept.1,
        parseElements_stringify rest kept.2]
      rfl

theorem parseMembers_stringify : ∀ members : List (Text × StateValue), LosslessMembers members →
    parseMembers (stringifyMembers members) = .ok members
  | [], _ => rfl
  | (key, value) :: rest, kept => by
      rw [stringifyMembers, parseMembers, parse_stringify value kept.1,
        parseMembers_stringify rest kept.2]
      rfl

end

/-! ## What comes back as it was -/

/-- No reader builds a class instance. -/
private theorem parse_plain (written : Json) (className : Text) (visited : StateValue) :
    parse written ≠ .ok (.classInstance className visited) := by
  intro read
  cases written with
  | null => cases read
  | bool value => cases read
  | number value => cases read
  | string value => cases read
  | array elements =>
      rw [parse] at read
      obtain ⟨_, _, revived⟩ := except_bind_ok _ _ _ read
      cases revived
  | object members prototype =>
      rw [parse] at read
      obtain ⟨revivedMembers, _, revived⟩ := except_bind_ok _ _ _ read
      rw [jsonReviver_object] at revived
      split at revived
      · split at revived <;> cases revived
      · cases revived

mutual

theorem lossless_of_parse : ∀ value : StateValue, parse (stringify value) = .ok value → Lossless value
  | .null, _ => trivial
  | .bool _, _ => trivial
  | .number value, read => by
      cases value with
      | nan => cases read
      | infinity negative => cases read
      | negativeZero => cases read
      | finite value => exact ⟨rfl, nofun⟩
  | .bigint _, _ => trivial
  | .string _, _ => trivial
  | .array elements, read => by
      rw [stringify, parse] at read
      obtain ⟨readElements, elementsRead, revived⟩ := except_bind_ok _ _ _ read
      cases revived
      exact losslessElements_of_parse elements elementsRead
  | .object members, read => by
      rw [stringify, parse] at read
      obtain ⟨readMembers, membersRead, revived⟩ := except_bind_ok _ _ _ read
      obtain ⟨same, unmarked⟩ := unmarked_of_jsonReviver readMembers members revived
      rw [same] at membersRead unmarked
      exact ⟨losslessMembers_of_parse members membersRead, unmarked⟩
  | .classInstance className visited, read => parse_plain _ className visited read

theorem losslessElements_of_parse : ∀ elements : List StateValue,
    parseElements (stringifyElements elements) = .ok elements → LosslessElements elements
  | [], _ => trivial
  | element :: rest, read => by
      rw [stringifyElements, parseElements] at read
      obtain ⟨readElement, elementRead, read⟩ := except_bind_ok _ _ _ read
      obtain ⟨readRest, restRead, read⟩ := except_bind_ok _ _ _ read
      cases read
      exact ⟨lossless_of_parse element elementRead, losslessElements_of_parse rest restRead⟩

theorem losslessMembers_of_parse : ∀ members : List (Text × StateValue),
    parseMembers (stringifyMembers members) = .ok members → LosslessMembers members
  | [], _ => trivial
  | (key, value) :: rest, read => by
      rw [stringifyMembers, parseMembers] at read
      obtain ⟨readValue, valueRead, read⟩ := except_bind_ok _ _ _ read
      obtain ⟨readRest, restRead, read⟩ := except_bind_ok _ _ _ read
      cases read
      exact ⟨lossless_of_parse value valueRead, losslessMembers_of_parse rest restRead⟩

end

theorem tryReadJson_writeJson_iff (value : StateValue) :
    tryReadJson (some (writeJson value)) = .ok (some value) ↔ Lossless value := by
  have wrapped : tryReadJson (some (writeJson value)) = some <$> parse (stringify value) := rfl
  rw [wrapped]
  constructor
  · intro read
    cases parsed : parse (stringify value) with
    | error fault =>
        rw [parsed] at read
        cases read
    | ok back =>
        rw [parsed] at read
        cases read
        exact lossless_of_parse value parsed
  · intro kept
    rw [parse_stringify value kept]
    rfl

/-- A value is read back as it was written exactly when it is lossless, and what
`aggregate_bind` stores never is: it holds the `Arguments` instance. -/
theorem persisted_value_survives_iff (value : StateValue) (params : BindParams) :
    (tryReadJson (some (writeJson value)) = .ok (some value) ↔ Lossless value) ∧
      tryReadJson (some (writeJson params.value)) ≠ .ok (some params.value) := by
  refine ⟨tryReadJson_writeJson_iff value, fun read => ?_⟩
  have kept := (tryReadJson_writeJson_iff params.value).mp read
  exact kept.1.2.1

/-- A minimum that has seen no row yet. -/
def minimumState : StateValue :=
  .object [(text "min", .number (.infinity false)), (text "count", .bigint 0)]

theorem infinite_minimum_not_kept :
    tryReadJson (some (writeJson minimumState)) ≠ .ok (some minimumState) ∧
      tryReadJson (some (writeJson minimumState)) =
        .ok (some (.object [(text "min", .null), (text "count", .bigint 0)])) := by
  refine ⟨fun read => ?_, rfl⟩
  have kept := (tryReadJson_writeJson_iff minimumState).mp read
  exact absurd kept.1.1.1 nofun

end VgiWorker.Aggregate
