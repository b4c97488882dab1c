import VgiWorker.Arrow.TypeSignature
import VgiWorker.Data.Delimited
import VgiWorker.Js.NumberProperties

/-!
# Reading signatures

The parts of a signature that tell its type, each of them cut off the front in one way, and what
a signature shows of a type without children.
-/

set_option autoImplicit false

namespace VgiWorker.Arrow.Library

open VgiWorker.Js

/-- What may stand behind a signature: a comma, or the bracket that closes a parent's. -/
def stops : List CodeUnit := [0x2c, 0x3e, 0x29]

def Stops (rest : Text) : Prop :=
  ∀ unit ∈ rest.head?, unit ∈ stops

/-! ## Runs of digits and of letters -/

inductive UnitClass where
  | digit
  | letter
  | sign
  deriving DecidableEq

def classOf (unit : CodeUnit) : UnitClass :=
  if 48 ≤ unit.toNat ∧ unit.toNat ≤ 57 then .digit
  else if 97 ≤ unit.toNat ∧ unit.toNat ≤ 122 then .letter
  else .sign

/-- A run of one class, which what follows does not go on. -/
structure Run (kind : UnitClass) (run rest : Text) : Prop where
  nonempty : run ≠ []
  alike : ∀ unit ∈ run, classOf unit = kind
  ends : ∀ unit ∈ rest.head?, classOf unit ≠ kind

private theorem run_split (kind : UnitClass) (run other rest rest' : Text)
    (alike : ∀ unit ∈ run, classOf unit = kind) (alike' : ∀ unit ∈ other, classOf unit = kind)
    (ends : ∀ unit ∈ rest.head?, classOf unit ≠ kind)
    (ends' : ∀ unit ∈ rest'.head?, classOf unit ≠ kind)
    (same : run ++ rest = other ++ rest') : run = other ∧ rest = rest' := by
  induction run generalizing other with
  | nil =>
      cases other with
      | nil => exact ⟨rfl, same⟩
      | cons unit others =>
          have first : unit ∈ rest.head? := by
            rw [List.nil_append] at same
            rw [same]
            rfl
          exact absurd (alike' unit List.mem_cons_self) (ends unit first)
  | cons unit units ih =>
      cases other with
      | nil =>
          have first : unit ∈ rest'.head? := by
            rw [List.nil_append] at same
            rw [← same]
            rfl
          exact absurd (alike unit List.mem_cons_self) (ends' unit first)
      | cons unit' others =>
          obtain ⟨here, later⟩ := List.cons.inj same
          obtain ⟨runs, rests⟩ := ih others
            (fun other member => alike other (List.mem_cons_of_mem _ member))
            (fun other member => alike' other (List.mem_cons_of_mem _ member)) later
          exact ⟨by rw [here, runs], rests⟩

/-- A text begins with one run only. -/
theorem run_inj (kind kind' : UnitClass) (run other rest rest' : Text) (left : Run kind run rest)
    (right : Run kind' other rest') (same : run ++ rest = other ++ rest') :
    run = other ∧ rest = rest' := by
  have kinds : kind = kind' := by
    cases run with
    | nil => exact absurd rfl left.nonempty
    | cons unit units =>
        cases other with
        | nil => exact absurd rfl right.nonempty
        | cons unit' units' =>
            obtain ⟨here, _⟩ := List.cons.inj same
            rw [← left.alike unit List.mem_cons_self, here, right.alike unit' List.mem_cons_self]
  subst kinds
  exact run_split kind run other rest rest' left.alike right.alike left.ends right.ends same

theorem decimal_run (value : Nat) (rest : Text)
    (ends : ∀ unit ∈ rest.head?, classOf unit ≠ .digit) :
    Run .digit (Number.decimal value) rest where
  nonempty := by
    obtain ⟨first, others, written⟩ := Number.decimal_head value
    rw [written]
    exact List.cons_ne_nil first others
  alike unit member := by
    rw [classOf, if_pos (Number.mem_decimal value unit member)]
  ends := ends

theorem decimal_cut (value other : Nat) (rest rest' : Text)
    (ends : ∀ unit ∈ rest.head?, classOf unit ≠ .digit)
    (ends' : ∀ unit ∈ rest'.head?, classOf unit ≠ .digit)
    (same : Number.decimal value ++ rest = Number.decimal other ++ rest') :
    value = other ∧ rest = rest' := by
  obtain ⟨values, rests⟩ := run_inj .digit .digit _ _ rest rest' (decimal_run value rest ends)
    (decimal_run other rest' ends') same
  exact ⟨Number.decimal_injective value other values, rests⟩

theorem Stops.classOf (rest : Text) (stops : Stops rest) :
    ∀ unit ∈ rest.head?, classOf unit = .sign := by
  intro unit member
  have listed := stops unit member
  simp only [Library.stops, List.mem_cons, List.not_mem_nil, or_false] at listed
  rcases listed with rfl | rfl | rfl <;> rfl

/-! ## Stems -/

def LeafType.stem : LeafType → Text
  | .int _ _ => text "int"
  | .float _ => text "float"
  | .decimal _ _ _ => text "decimal"
  | .date _ => text "8"
  | .time _ _ => text "9"
  | .duration _ => text "18"
  | .timestamp _ _ => text "ts"
  | .interval _ => text "iv"
  | .fixedSizeBinary _ => text "fsb"
  | .null => text "1"
  | .binary => text "4"
  | .utf8 => text "5"
  | .bool => text "6"
  | .largeBinary => text "19"
  | .largeUtf8 => text "20"
  | .binaryView => text "23"
  | .utf8View => text "24"

def LeafType.body : LeafType → Text
  | .int bitWidth signed => Number.decimal bitWidth ++ if signed then [] else text "u"
  | .float precision => Number.decimal precision.code
  | .decimal bitWidth precision scale =>
      Number.decimal bitWidth ++ text "(" ++ Number.decimal precision ++ text "," ++
        Number.decimalInt scale ++ text ")"
  | .date unit => text "[" ++ Number.decimal unit.code ++ text "]"
  | .time unit _ => text "[" ++ Number.decimal unit.code ++ text "]"
  | .duration unit => text "[" ++ Number.decimal unit.code ++ text "]"
  | .timestamp unit timezone =>
      text "[" ++ Number.decimal unit.code ++ text "," ++ timezone.getD [] ++ text "]"
  | .interval unit => text "[" ++ Number.decimal unit.code ++ text "]"
  | .fixedSizeBinary byteWidth => text "(" ++ Number.decimal byteWidth ++ text ")"
  | _ => []

def NestKind.stem : NestKind → Text
  | .fixedSizeList _ => text "fsl"
  | .union _ _ => text "union"
  | .list => text "12"
  | .struct => text "13"
  | .map _ => text "17"
  | .largeList => text "21"
  | .runEndEncoded => text "22"
  | .listView => text "25"
  | .largeListView => text "26"

def NestKind.body : NestKind → Text
  | .fixedSizeList listSize => text "(" ++ Number.decimal listSize ++ text ","
  | .union mode _ => text "(" ++ Number.decimal mode.code ++ text ","
  | _ => text "<"

theorem LeafType.signature_eq (type : LeafType) : type.signature = type.stem ++ type.body := by
  cases type with
  | int | float => rfl
  | decimal => simp [signature, stem, body]
  | null | binary | utf8 | bool | largeBinary | largeUtf8 | binaryView | utf8View =>
      exact (List.append_nil _).symm
  | _ => rfl

theorem NestKind.opening_eq (kind : NestKind) : kind.opening = kind.stem ++ kind.body := by
  cases kind <;> rfl

/-- The type id whose stem a text is. -/
def readStem (stem : Text) : Option Int :=
  [(text "1", 1), (text "int", 2), (text "float", 3), (text "4", 4), (text "5", 5), (text "6", 6),
    (text "decimal", 7), (text "8", 8), (text "9", 9), (text "ts", 10), (text "iv", 11),
    (text "12", 12), (text "13", 13), (text "union", 14), (text "fsb", 15), (text "fsl", 16),
    (text "17", 17), (text "18", 18), (text "19", 19), (text "20", 20), (text "21", 21),
    (text "22", 22), (text "23", 23), (text "24", 24), (text "25", 25), (text "26", 26),
    (text "dict", -1)].lookup stem

theorem LeafType.readStem_stem (type : LeafType) : readStem type.stem = some type.typeId := by
  cases type <;> rfl

theorem NestKind.readStem_stem (kind : NestKind) : readStem kind.stem = some kind.typeId := by
  cases kind <;> rfl

private theorem decimal_class (value : Nat) (rest : Text) :
    ∀ unit ∈ (Number.decimal value ++ rest).head?, classOf unit = .digit := by
  obtain ⟨first, others, written⟩ := Number.decimal_head value
  intro unit member
  rw [written] at member
  cases member
  rw [classOf, if_pos (Number.mem_decimal value first (written ▸ List.mem_cons_self))]

def LeafType.stemClass : LeafType → UnitClass
  | .int _ _ | .float _ | .decimal _ _ _ | .timestamp _ _ | .interval _ | .fixedSizeBinary _ =>
      .letter
  | _ => .digit

def NestKind.stemClass : NestKind → UnitClass
  | .fixedSizeList _ | .union _ _ => .letter
  | _ => .digit

private theorem LeafType.stem_alike (type : LeafType) :
    type.stem ≠ [] ∧ ∀ unit ∈ type.stem, classOf unit = type.stemClass := by
  cases type <;> simp only [stem, stemClass] <;>
    exact ⟨by decide, forall_mem_of_all _ _ (by decide)⟩

private theorem NestKind.stem_alike (kind : NestKind) :
    kind.stem ≠ [] ∧ ∀ unit ∈ kind.stem, classOf unit = kind.stemClass := by
  cases kind <;> simp only [stem, stemClass] <;>
    exact ⟨by decide, forall_mem_of_all _ _ (by decide)⟩

theorem LeafType.stem_run (type : LeafType) (rest : Text) (stopped : Stops rest) :
    Run type.stemClass type.stem (type.body ++ rest) := by
  refine ⟨type.stem_alike.1, type.stem_alike.2, ?_⟩
  have signs : ∀ unit ∈ rest.head?, classOf unit ≠ .digit := fun unit member => by
    rw [stopped.classOf rest unit member]
    exact UnitClass.noConfusion
  have bracket (body : Text) (unit : CodeUnit) (member : unit ∈ ((0x5b :: body) ++ rest).head?) :
      classOf unit = .sign := by
    cases member
    rfl
  cases type with
  | int bitWidth signed =>
      intro unit member
      rw [body, List.append_assoc] at member
      rw [decimal_class _ _ unit member]
      exact UnitClass.noConfusion
  | float precision =>
      intro unit member
      rw [body] at member
      rw [decimal_class _ _ unit member]
      exact UnitClass.noConfusion
  | decimal bitWidth precision scale =>
      intro unit member
      simp only [body, List.append_assoc] at member
      rw [decimal_class _ _ unit member]
      exact UnitClass.noConfusion
  | timestamp | interval =>
      intro unit member
      rw [bracket _ unit member]
      exact UnitClass.noConfusion
  | fixedSizeBinary =>
      intro unit member
      cases member
      exact UnitClass.noConfusion
  | date | time | duration =>
      intro unit member
      rw [bracket _ unit member]
      exact UnitClass.noConfusion
  | _ => exact signs

theorem NestKind.stem_run (kind : NestKind) (rest : Text) :
    Run kind.stemClass kind.stem (kind.body ++ rest) := by
  refine ⟨kind.stem_alike.1, kind.stem_alike.2, ?_⟩
  cases kind with
  | fixedSizeList | union =>
      intro unit member
      cases member
      exact UnitClass.noConfusion
  | _ =>
      intro unit member
      cases member
      exact UnitClass.noConfusion

theorem dictionary_run (rest : Text) : Run .letter (text "dict") (text "(" ++ rest) where
  nonempty := by decide
  alike := forall_mem_of_all _ _ (by decide)
  ends unit member := by
    cases member
    exact UnitClass.noConfusion

/-! ## Types without children -/

/-- The type as far as its signature shows it: a time's bit width is not in it, nor whether
a timestamp's timezone is absent or empty. -/
def LeafType.shown : LeafType → LeafType
  | .time unit _ => .time unit 0
  | .timestamp unit timezone => .timestamp unit (some (timezone.getD []))
  | type => type

/-- A timezone in which no end of the signature can be read. -/
def ReadableZone (timezone : Text) : Prop :=
  ∀ before after unit, timezone = before ++ 0x5d :: unit :: after → unit ∉ stops

def LeafType.Readable : LeafType → Prop
  | .timestamp _ timezone => ReadableZone (timezone.getD [])
  | _ => True

theorem LeafType.signature_shown (type : LeafType) : type.shown.signature = type.signature := by
  cases type <;> rfl

/-- A text that brackets may stand behind is not gone on by digits. -/
private theorem signs_end (unit : CodeUnit) (rest : Text) (sign : classOf unit ≠ .digit) :
    ∀ other ∈ (unit :: rest).head?, classOf other ≠ .digit := by
  intro other member
  cases member
  exact sign

theorem decimal_delimited (delimiter : CodeUnit) (value other : Nat) (rest rest' : Text)
    (sign : classOf delimiter ≠ .digit)
    (same : Number.decimal value ++ delimiter :: rest = Number.decimal other ++ delimiter :: rest') :
    value = other ∧ rest = rest' := by
  obtain ⟨values, rests⟩ := decimal_cut value other _ _ (signs_end delimiter rest sign)
    (signs_end delimiter rest' sign) same
  exact ⟨values, (List.cons.inj rests).2⟩

private theorem zone_early (zone zone' rest rest' : Text) (stopped : Stops rest)
    (readable : ReadableZone zone') (shorter : zone.length < zone'.length)
    (same : zone ++ 0x5d :: rest = zone' ++ 0x5d :: rest') : False := by
  obtain ⟨after, rfl⟩ : ∃ after, zone' = zone ++ after := by
    have isPrefix : zone <+: zone' :=
      List.prefix_of_prefix_length_le ⟨0x5d :: rest, same⟩ ⟨0x5d :: rest', rfl⟩ shorter.le
    obtain ⟨after, rfl⟩ := isPrefix
    exact ⟨after, rfl⟩
  rw [List.append_assoc] at same
  have tails := List.append_cancel_left same
  cases after with
  | nil => simp at shorter
  | cons first after =>
      obtain ⟨rfl, behind⟩ := List.cons.inj tails
      cases after with
      | nil =>
          rw [behind] at stopped
          exact absurd (stopped 0x5d rfl) (by decide)
      | cons second after =>
          rw [behind] at stopped
          exact readable zone after second rfl (stopped second rfl)

/-- A timezone is read up to the bracket behind it. -/
theorem zone_cut (zone zone' rest rest' : Text) (stopped : Stops rest) (stopped' : Stops rest')
    (readable : ReadableZone zone) (readable' : ReadableZone zone')
    (same : zone ++ 0x5d :: rest = zone' ++ 0x5d :: rest') : zone = zone' ∧ rest = rest' := by
  rcases Nat.lt_trichotomy zone.length zone'.length with less | equal | greater
  · exact (zone_early zone zone' rest rest' stopped readable' less same).elim
  · obtain ⟨zones, rests⟩ := List.append_inj same equal
    exact ⟨zones, (List.cons.inj rests).2⟩
  · exact (zone_early zone' zone rest' rest stopped' readable greater same.symm).elim

private theorem dateUnit_code (left right : DateUnit) (same : left.code = right.code) :
    left = right := by
  cases left <;> cases right <;> first | rfl | cases same

private theorem timeUnit_code (left right : TimeUnit) (same : left.code = right.code) :
    left = right := by
  cases left <;> cases right <;> first | rfl | cases same

private theorem intervalUnit_code (left right : IntervalUnit) (same : left.code = right.code) :
    left = right := by
  cases left <;> cases right <;> first | rfl | cases same

private theorem precision_code (left right : Precision) (same : left.code = right.code) :
    left = right := by
  cases left <;> cases right <;> first | rfl | cases same

private theorem decimalInt_delimited (value other : Int) (rest rest' : Text)
    (same : Number.decimalInt value ++ 0x29 :: rest = Number.decimalInt other ++ 0x29 :: rest') :
    value = other ∧ rest = rest' := by
  have free (value : Int) : (0x29 : CodeUnit) ∉ Number.decimalInt value := by
    have digits (value : Nat) : (0x29 : CodeUnit) ∉ Number.decimal value := fun member =>
      absurd (Number.mem_decimal value 0x29 member).1 (by decide)
    rw [Number.decimalInt]
    split
    · rw [List.mem_append, not_or]
      exact ⟨by decide, digits _⟩
    · exact digits _
  obtain ⟨values, rests⟩ := append_delimiter_inj 0x29 _ _ rest rest' (free value) (free other) same
  have read := congrArg Number.bigIntOfText? values
  rw [Number.bigIntOfText?_decimalInt, Number.bigIntOfText?_decimalInt] at read
  exact ⟨Option.some.inj read, rests⟩

/-- The parameter in square brackets. -/
private theorem boxed_cut (value other : Nat) (rest rest' : Text)
    (same : text "[" ++ Number.decimal value ++ text "]" ++ rest =
      text "[" ++ Number.decimal other ++ text "]" ++ rest') : value = other ∧ rest = rest' := by
  simp only [List.append_assoc] at same
  exact decimal_delimited 0x5d value other rest rest' (by decide) (List.append_cancel_left same)

private theorem int_cut (bitWidth other : Nat) (signed signed' : Bool) (rest rest' : Text)
    (stopped : Stops rest) (stopped' : Stops rest')
    (same : Number.decimal bitWidth ++ ((if signed then [] else text "u") ++ rest) =
      Number.decimal other ++ ((if signed' then [] else text "u") ++ rest')) :
    (bitWidth = other ∧ signed = signed') ∧ rest = rest' := by
  have ends (signed : Bool) (rest : Text) (stopped : Stops rest) :
      ∀ unit ∈ ((if signed then [] else text "u") ++ rest).head?, classOf unit ≠ .digit := by
    intro unit member
    cases signed with
    | true =>
        rw [stopped.classOf rest unit member]
        exact UnitClass.noConfusion
    | false =>
        cases member
        exact UnitClass.noConfusion
  obtain ⟨rfl, rests⟩ := decimal_cut bitWidth other _ _ (ends signed rest stopped)
    (ends signed' rest' stopped') same
  cases signed with
  | true =>
      cases signed' with
      | true => exact ⟨⟨rfl, rfl⟩, rests⟩
      | false =>
          change rest = _ at rests
          rw [rests] at stopped
          exact absurd (stopped 0x75 rfl) (by decide)
  | false =>
      cases signed' with
      | true =>
          change _ = rest' at rests
          rw [← rests] at stopped'
          exact absurd (stopped' 0x75 rfl) (by decide)
      | false => exact ⟨⟨rfl, rfl⟩, List.append_cancel_left rests⟩

/-- The signatures of two types without children are cut off alike only where the types
show the same. -/
theorem leaf_cut (left right : LeafType) (rest rest' : Text) (stopped : Stops rest)
    (stopped' : Stops rest') (readable : left.Readable) (readable' : right.Readable)
    (same : left.signature ++ rest = right.signature ++ rest') :
    left.shown = right.shown ∧ rest = rest' := by
  rw [left.signature_eq, right.signature_eq, List.append_assoc, List.append_assoc] at same
  obtain ⟨stems, bodies⟩ := run_inj _ _ _ _ _ _ (left.stem_run rest stopped)
    (right.stem_run rest' stopped') same
  have ids : left.typeId = right.typeId := by
    have read := congrArg readStem stems
    rw [left.readStem_stem, right.readStem_stem] at read
    exact Option.some.inj read
  cases left with
  | int bitWidth signed =>
      cases right with
      | int other signed' =>
          simp only [LeafType.body, List.append_assoc] at bodies
          obtain ⟨⟨rfl, rfl⟩, rests⟩ := int_cut _ _ _ _ rest rest' stopped stopped' bodies
          exact ⟨rfl, rests⟩
      | _ => cases ids
  | float precision =>
      cases right with
      | float other =>
          have ends (rest : Text) (stopped : Stops rest) :
              ∀ unit ∈ rest.head?, classOf unit ≠ .digit := by
            intro unit member
            rw [stopped.classOf rest unit member]
            exact UnitClass.noConfusion
          obtain ⟨codes, rests⟩ := decimal_cut _ _ rest rest' (ends rest stopped)
            (ends rest' stopped') bodies
          exact ⟨by rw [precision_code _ _ codes], rests⟩
      | _ => cases ids
  | decimal bitWidth precision scale =>
      cases right with
      | decimal bitWidth' precision' scale' =>
          simp only [LeafType.body, List.append_assoc] at bodies
          obtain ⟨rfl, behindWidth⟩ := decimal_delimited 0x28 _ _ _ _ (by decide) bodies
          obtain ⟨rfl, behindPrecision⟩ := decimal_delimited 0x2c _ _ _ _ (by decide) behindWidth
          obtain ⟨rfl, rests⟩ := decimalInt_delimited _ _ _ _ behindPrecision
          exact ⟨rfl, rests⟩
      | _ => cases ids
  | date unit =>
      cases right with
      | date other =>
          obtain ⟨codes, rests⟩ := boxed_cut _ _ rest rest' bodies
          exact ⟨by rw [dateUnit_code _ _ codes], rests⟩
      | _ => cases ids
  | time unit bitWidth =>
      cases right with
      | time other bitWidth' =>
          obtain ⟨codes, rests⟩ := boxed_cut _ _ rest rest' bodies
          exact ⟨by rw [LeafType.shown, LeafType.shown, timeUnit_code _ _ codes], rests⟩
      | _ => cases ids
  | duration unit =>
      cases right with
      | duration other =>
          obtain ⟨codes, rests⟩ := boxed_cut _ _ rest rest' bodies
          exact ⟨by rw [timeUnit_code _ _ codes], rests⟩
      | _ => cases ids
  | interval unit =>
      cases right with
      | interval other =>
          obtain ⟨codes, rests⟩ := boxed_cut _ _ rest rest' bodies
          exact ⟨by rw [intervalUnit_code _ _ codes], rests⟩
      | _ => cases ids
  | timestamp unit timezone =>
      cases right with
      | timestamp other timezone' =>
          simp only [LeafType.body, List.append_assoc] at bodies
          obtain ⟨codes, bodies⟩ := decimal_delimited 0x2c _ _ _ _ (by decide)
            (List.append_cancel_left bodies)
          obtain ⟨zones, rests⟩ := zone_cut _ _ rest rest' stopped stopped' readable readable'
            bodies
          exact ⟨by rw [LeafType.shown, LeafType.shown, timeUnit_code _ _ codes, zones], rests⟩
      | _ => cases ids
  | fixedSizeBinary byteWidth =>
      cases right with
      | fixedSizeBinary other =>
          simp only [LeafType.body, List.append_assoc] at bodies
          obtain ⟨rfl, rests⟩ := decimal_delimited 0x29 _ _ rest rest' (by decide)
            (List.append_cancel_left bodies)
          exact ⟨rfl, rests⟩
      | _ => cases ids
  | null => cases right with
      | null => exact ⟨rfl, bodies⟩
      | _ => cases ids
  | binary => cases right with
      | binary => exact ⟨rfl, bodies⟩
      | _ => cases ids
  | utf8 => cases right with
      | utf8 => exact ⟨rfl, bodies⟩
      | _ => cases ids
  | bool => cases right with
      | bool => exact ⟨rfl, bodies⟩
      | _ => cases ids
  | largeBinary => cases right with
      | largeBinary => exact ⟨rfl, bodies⟩
      | _ => cases ids
  | largeUtf8 => cases right with
      | largeUtf8 => exact ⟨rfl, bodies⟩
      | _ => cases ids
  | binaryView => cases right with
      | binaryView => exact ⟨rfl, bodies⟩
      | _ => cases ids
  | utf8View => cases right with
      | utf8View => exact ⟨rfl, bodies⟩
      | _ => cases ids

end VgiWorker.Arrow.Library
