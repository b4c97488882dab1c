import Mathlib.Data.List.TakeWhile
import VgiWorker.Data.Result
import VgiWorker.Js.NumberProperties
import VgiWorker.Protocol.Arguments

/-!
# Which arguments survive the wire

The cell each value is written to, what it reads back as, and the arguments that
come back as they were.
-/

set_option autoImplicit false

namespace VgiWorker.Protocol

open VgiWorker.Js VgiWorker.Arrow

/-! ## Equal values -/

mutual

/-- The same value, numbers and bigints compared as mathematical values. -/
def SameValue : Rich → Rich → Prop
  | .null, .null => True
  | .bool left, .bool right => left = right
  | .number left, .number right =>
      left.toRat? = right.toRat? ∧ (left.toRat? = none → left = right)
  | .number left, .bigint right => left.toRat? = some (right : ℚ)
  | .bigint left, .number right => right.toRat? = some (left : ℚ)
  | .bigint left, .bigint right => left = right
  | .string left, .string right => left = right
  | .bytes left, .bytes right => left = right
  | .date left, .date right => left = right
  | .array left, .array right => SameElements left right
  | .object left, .object right => SameMembers left right
  | _, _ => False

def SameElements : List Rich → List Rich → Prop
  | [], [] => True
  | left :: leftRest, right :: rightRest => SameValue left right ∧ SameElements leftRest rightRest
  | _, _ => False

def SameMembers : List (Text × Rich) → List (Text × Rich) → Prop
  | [], [] => True
  | (leftName, left) :: leftRest, (rightName, right) :: rightRest =>
      leftName = rightName ∧ SameValue left right ∧ SameMembers leftRest rightRest
  | _, _ => False

end

example : ¬SameValue .null (.bool true) := by simp [SameValue]

/-- The same positional values in order and the same named values under the same names. -/
def SameArguments (left right : Arguments) : Prop :=
  List.Forall₂ SameValue left.positional right.positional ∧
    ∀ name, Option.Rel SameValue (left.named.get? name) (right.named.get? name)

/-! ## One value -/

def InInt64 (value : Int) : Prop :=
  -2 ^ 63 ≤ value ∧ value ≤ 2 ^ 63 - 1

/-- The values a child of the struct can be written with. -/
def Fits : Rich → Prop
  | .number number => ∃ integer, number.toInt? = some integer ∧ InInt64 integer
  | .bigint value => InInt64 value
  | _ => True

/-- The values that come back as they were. -/
def SurvivesWire : Rich → Prop
  | .string value => SurvivesUtf8 value
  | .date _ => False
  | .array _ => False
  | .object _ => False
  | value => Fits value

section

variable (dateText : Number → Text)

/-- The value a fitting argument is coerced to. -/
def coerced : Rich → Rich
  | .number number => .bigint (number.toInt?.getD 0)
  | value => value

/-- The canonical value of a fitting argument. -/
def canonicalOf : Rich → Value
  | .number number => .bigint (number.toInt?.getD 0)
  | .null => .null
  | .bool value => .bool value
  | .bigint value => .bigint value
  | .string value => .string value
  | .bytes value => .bytes value
  | value => .string (value.toText dateText)

example : canonicalOf dateText .null = .null := by simp [canonicalOf]

/-- Its cell. -/
def cellOf (value : Rich) : Value :=
  match canonicalOf dateText value with
  | .string held => .string (dropBom (toWellFormed held))
  | held => held

theorem coerceArgument_ok (value result : Rich) (success : coerceArgument value = .ok result) :
    result = coerced value ∧ (∀ number, value = .number number → number.toInt?.isSome) := by
  cases value with
  | number number =>
      cases integral : number.toInt? with
      | none => simp [coerceArgument, inferScalarType, integral] at success
      | some integer =>
          simp only [coerceArgument, inferScalarType, integral] at success
          cases success
          refine ⟨by simp [coerced, integral], ?_⟩
          rintro other same
          cases same
          rw [integral]
          rfl
  | _ =>
      cases success
      exact ⟨rfl, by intro number same; cases same⟩

theorem coerceArgument_fits (value : Rich) (fits : Fits value) :
    coerceArgument value = .ok (coerced value) := by
  cases value with
  | number number =>
      obtain ⟨integer, integral, _⟩ := fits
      simp [coerceArgument, inferScalarType, coerced, integral]
  | _ => rfl

theorem intRange_64 : intRange 64 true = (-2 ^ 63, 2 ^ 63 - 1) := by
  decide

theorem write_fits (value : Rich) (fits : Fits value) :
    richToCanonical dateText (inferScalarType value) (coerced value) =
      .ok (canonicalOf dateText value) := by
  cases value with
  | number number =>
      obtain ⟨integer, integral, bounds⟩ := fits
      have range : -2 ^ 63 ≤ integer ∧ integer ≤ 2 ^ 63 - 1 := bounds
      simp only [inferScalarType, coerced, canonicalOf, integral, Option.getD_some, richToCanonical,
        isRichNull, Bool.false_eq_true, if_false, scalarToCanonical, intRange_64, checkInteger]
      rw [if_pos range]
  | bigint held =>
      have range : -2 ^ 63 ≤ held ∧ held ≤ 2 ^ 63 - 1 := fits
      simp only [inferScalarType, coerced, canonicalOf, richToCanonical, isRichNull,
        Bool.false_eq_true, if_false, scalarToCanonical, intRange_64, checkInteger]
      rw [if_pos range]
  | _ => rfl

theorem fits_of_write (value : Rich) (canonical : Value)
    (integral : ∀ number, value = .number number → number.toInt?.isSome)
    (success : richToCanonical dateText (inferScalarType value) (coerced value) = .ok canonical) :
    Fits value := by
  cases value with
  | number number =>
      obtain ⟨integer, found⟩ := Option.isSome_iff_exists.mp (integral number rfl)
      simp only [inferScalarType, coerced, found, Option.getD_some, richToCanonical, isRichNull,
        Bool.false_eq_true, if_false, scalarToCanonical, intRange_64, checkInteger] at success
      split at success
      · rename_i range
        exact ⟨integer, found, range⟩
      · cases success
  | bigint held =>
      simp only [inferScalarType, coerced, richToCanonical, isRichNull, Bool.false_eq_true, if_false,
        scalarToCanonical, intRange_64, checkInteger] at success
      split at success
      · rename_i range
        exact range
      · cases success
  | _ => trivial

theorem storeCell_canonicalOf (value : Rich) :
    storeCell (inferScalarType value) (canonicalOf dateText value) = cellOf dateText value := by
  cases value <;> rfl

theorem receiveCell_cellOf (value : Rich) :
    receiveCell (inferScalarType value) (cellOf dateText value) = cellOf dateText value := by
  cases value <;> rfl

theorem read_cellOf (value : Rich) (fits : Fits value) :
    canonicalToRich dateText (inferScalarType value) (cellOf dateText value) =
      .ok (Rich.ofValue (cellOf dateText value)) := by
  cases value with
  | number number =>
      obtain ⟨integer, integral, bounds⟩ := fits
      have range : -2 ^ 63 ≤ integer ∧ integer ≤ 2 ^ 63 - 1 := bounds
      simp only [inferScalarType, cellOf, canonicalOf, integral, Option.getD_some, canonicalToRich,
        isCanonicalNull, Bool.false_eq_true, if_false, scalarToRich, scalarToCanonical, intRange_64,
        Rich.ofValue, checkInteger]
      rw [if_pos range]
      rfl
  | bigint held =>
      have range : -2 ^ 63 ≤ held ∧ held ≤ 2 ^ 63 - 1 := fits
      simp only [inferScalarType, cellOf, canonicalOf, canonicalToRich, isCanonicalNull,
        Bool.false_eq_true, if_false, scalarToRich, scalarToCanonical, intRange_64, Rich.ofValue,
        checkInteger]
      rw [if_pos range]
      rfl
  | _ => rfl

/-- A fitting value reads back as the same value exactly when it survives. -/
theorem sameValue_received_iff (value : Rich) (fits : Fits value) :
    SameValue value (Rich.ofValue (cellOf dateText value)) ↔ SurvivesWire value := by
  cases value with
  | number number =>
      obtain ⟨integer, integral, bounds⟩ := fits
      have rational := (Number.toInt?_eq_some number integer).mp integral
      constructor
      · intro _
        exact ⟨integer, integral, bounds⟩
      · intro _
        simpa [cellOf, canonicalOf, integral, Rich.ofValue, SameValue] using rational
  | string held =>
      constructor
      · intro same
        have same : held = dropBom (toWellFormed held) := same
        exact survivesUtf8_of_decoded held same.symm
      · intro survives
        have decoded := utf8Decode_of_survives held survives
        rw [utf8Decode_utf8Encode] at decoded
        exact (Option.some.inj decoded).symm
  | bigint held => exact ⟨fun _ => fits, fun _ => rfl⟩
  | null => exact ⟨fun _ => trivial, fun _ => trivial⟩
  | bool held => exact ⟨fun _ => trivial, fun _ => rfl⟩
  | bytes held => exact ⟨fun _ => trivial, fun _ => rfl⟩
  | date time => exact ⟨fun same => same.elim, fun survives => survives.elim⟩
  | array elements => exact ⟨fun same => same.elim, fun survives => survives.elim⟩
  | object members => exact ⟨fun same => same.elim, fun survives => survives.elim⟩

theorem fits_of_survives (value : Rich) (survives : SurvivesWire value) : Fits value := by
  cases value with
  | number number => exact survives
  | bigint held => exact survives
  | _ => trivial

/-! ## The struct of all of them -/

private theorem lookup_mapped {β γ : Type} (entries : List (Text × β)) (f : β → γ)
    (nodup : (entries.map Prod.fst).Nodup) (entry : Text × β) (member : entry ∈ entries) :
    lookupEntry (entries.map fun entry => (entry.1, f entry.2)) entry.1 = some (f entry.2) := by
  apply lookupEntry_of_mem
  · simpa [Function.comp_def] using nodup
  · exact List.mem_map.mpr ⟨entry, member, rfl⟩

private theorem structToCanonical_ok (entries : List (Text × Rich)) (row : Rich)
    (members : List (Text × Value))
    (success : structToCanonical dateText (entries.map argumentField) row = .ok members) :
    ∀ entry ∈ entries, ∃ held canonical, richMember row entry.1 = .ok held ∧
      richToCanonical dateText (inferScalarType entry.2) held = .ok canonical := by
  induction entries generalizing members with
  | nil => simp
  | cons first rest ih =>
      rw [List.map_cons, argumentField, structToCanonical] at success
      obtain ⟨held, found, success⟩ := except_bind_ok _ _ _ success
      obtain ⟨canonical, written, success⟩ := except_bind_ok _ _ _ success
      obtain ⟨others, later, success⟩ := except_bind_ok _ _ _ success
      intro entry member
      rcases List.mem_cons.mp member with rfl | member
      · exact ⟨held, canonical, found, written⟩
      · exact ih others later entry member

private theorem structToCanonical_eq (entries : List (Text × Rich)) (row : List (Text × Rich))
    (each : ∀ entry ∈ entries, Fits entry.2 ∧
      lookupEntry row entry.1 = some (coerced entry.2)) :
    structToCanonical dateText (entries.map argumentField) (.object row) =
      .ok (entries.map fun entry => (entry.1, canonicalOf dateText entry.2)) := by
  induction entries with
  | nil => rfl
  | cons first rest ih =>
      obtain ⟨fits, found⟩ := each first List.mem_cons_self
      have later := ih fun entry member => each entry (List.mem_cons_of_mem _ member)
      simp only [List.map_cons, argumentField, structToCanonical, richMember, found,
        Option.getD_some, except_ok_bind, write_fits dateText first.2 fits, later]

private theorem storeMembers_eq (entries : List (Text × Rich)) (members : List (Text × Value))
    (each : ∀ entry ∈ entries,
      lookupEntry members entry.1 = some (canonicalOf dateText entry.2)) :
    storeMembers (entries.map argumentField) members =
      entries.map fun entry => (entry.1, cellOf dateText entry.2) := by
  induction entries with
  | nil => rfl
  | cons first rest ih =>
      rw [List.map_cons, argumentField, storeMembers, each first List.mem_cons_self,
        Option.getD_some, storeCell_canonicalOf,
        ih fun entry member => each entry (List.mem_cons_of_mem _ member), List.map_cons]

private theorem receiveMembers_eq (entries : List (Text × Rich)) (members : List (Text × Value))
    (each : ∀ entry ∈ entries, lookupEntry members entry.1 = some (cellOf dateText entry.2)) :
    receiveMembers (entries.map argumentField) members =
      entries.map fun entry => (receivedName entry.1, cellOf dateText entry.2) := by
  induction entries with
  | nil => rfl
  | cons first rest ih =>
      rw [List.map_cons, argumentField, receiveMembers, each first List.mem_cons_self,
        Option.getD_some, receiveCell_cellOf,
        ih fun entry member => each entry (List.mem_cons_of_mem _ member), List.map_cons]

private theorem receiveType_scalar (value : Rich) :
    receiveType (inferScalarType value) = inferScalarType value := by
  cases value <;> rfl

private theorem receiveFields_eq (entries : List (Text × Rich)) :
    receiveFields (entries.map argumentField) =
      entries.map fun entry => argumentField (receivedName entry.1, entry.2) := by
  induction entries with
  | nil => rfl
  | cons first rest ih =>
      rw [List.map_cons, argumentField, receiveFields, receiveType_scalar, ih]
      rfl

private theorem structToRich_eq (entries : List (Text × Rich)) (members : List (Text × Value))
    (each : ∀ entry ∈ entries, Fits entry.2 ∧
      lookupEntry members entry.1 = some (cellOf dateText entry.2)) :
    structToRich dateText (entries.map argumentField) (.object members) =
      .ok (entries.map fun entry => (entry.1, Rich.ofValue (cellOf dateText entry.2))) := by
  induction entries with
  | nil => rfl
  | cons first rest ih =>
      obtain ⟨fits, found⟩ := each first List.mem_cons_self
      have later := ih fun entry member => each entry (List.mem_cons_of_mem _ member)
      simp only [List.map_cons, argumentField, structToRich, canonicalMember, found,
        Option.getD_some, except_ok_bind, read_cellOf dateText first.2 fits, later]

private theorem structToRich_names (fields : List Field) (value : Value)
    (members : List (Text × Rich)) (success : structToRich dateText fields value = .ok members) :
    members.map Prod.fst = fields.map FieldOf.name := by
  induction fields generalizing members with
  | nil =>
      cases success
      rfl
  | cons field rest ih =>
      rw [structToRich] at success
      obtain ⟨_, _, success⟩ := except_bind_ok _ _ _ success
      obtain ⟨_, _, success⟩ := except_bind_ok _ _ _ success
      obtain ⟨others, later, success⟩ := except_bind_ok _ _ _ success
      cases success
      rw [List.map_cons, List.map_cons, ih others later]

/-! ## The names -/

private theorem prefixes_basic : (∀ unit ∈ positionalPrefix, unit.toNat < 0xd800) ∧
    ∀ unit ∈ namedPrefix, unit.toNat < 0xd800 :=
  ⟨forall_mem_of_all _ _ (by decide), forall_mem_of_all _ _ (by decide)⟩

private theorem receivedName_prefixed (start name : Text) (nonempty : start.head?.any (· ≠ 0xfeff))
    (basic : ∀ unit ∈ start, unit.toNat < 0xd800) :
    receivedName (start ++ name) = start ++ toWellFormed name := by
  rw [receivedName, toWellFormed_append_basic _ _ basic]
  cases start with
  | nil => simp at nonempty
  | cons first rest =>
      have notBom : first ≠ 0xfeff := by simpa using nonempty
      rw [List.cons_append, dropBom, if_neg notBom]

private theorem receivedName_positional (index : Nat) :
    receivedName (positionalPrefix ++ Number.decimal index) =
      positionalPrefix ++ Number.decimal index := by
  rw [receivedName_prefixed _ _ (by decide) prefixes_basic.1]
  congr 1
  apply isWellFormed_of_basic
  intro unit member
  have range := Number.mem_decimal index unit member
  omega

private theorem receivedName_named (name : Text) :
    receivedName (namedPrefix ++ name) = namedPrefix ++ toWellFormed name :=
  receivedName_prefixed _ _ (by decide) prefixes_basic.2

private theorem positionalPrefix_not_named (rest : Text) :
    positionalPrefix.isPrefixOf (namedPrefix ++ rest) = false := by
  rfl

private theorem named_not_positional (name rest : Text) :
    namedPrefix ++ name ≠ positionalPrefix ++ rest := by
  intro same
  have heads := congrArg List.head? same
  have different : namedPrefix.head? ≠ positionalPrefix.head? := by decide
  exact different heads

private theorem isPrefixOf_append (start rest : Text) : start.isPrefixOf (start ++ rest) = true :=
  List.isPrefixOf_iff_prefix.mpr (List.prefix_append start rest)

theorem nodup_structValues (args : Arguments) : ((structValues args).map Prod.fst).Nodup := by
  rw [structValues, List.map_append, List.map_map, List.map_map, List.nodup_append]
  refine ⟨?_, ?_, ?_⟩
  · have indices : (args.positional.zipIdx.map Prod.snd).Nodup := by
      rw [List.zipIdx_map_snd]
      exact List.nodup_range'
    have injective : Function.Injective fun index : Nat => positionalPrefix ++ Number.decimal index :=
      fun left right same => Number.decimal_injective left right (List.append_cancel_left same)
    have mapped := indices.map injective
    rwa [List.map_map] at mapped
  · have injective : Function.Injective fun name : Text => namedPrefix ++ name :=
      fun left right same => List.append_cancel_left same
    have mapped := args.named.nodup.map injective
    rwa [List.map_map] at mapped
  · intro left leftMem right rightMem same
    obtain ⟨positional, _, rfl⟩ := List.mem_map.mp leftMem
    obtain ⟨named, _, rfl⟩ := List.mem_map.mp rightMem
    exact named_not_positional _ _ same.symm

/-! ## The batch sent and received -/

/-- The batch of arguments that fit. -/
def sentBatch (args : Arguments) : Batch :=
  { schema := ⟨[⟨text "args", .struct ((structValues args).map argumentField), true, .empty⟩], .empty⟩
    columns := [[.object ((structValues args).map fun entry => (entry.1, cellOf dateText entry.2))]]
    numRows := 1
    metadata := none }

private theorem richToCanonical_object (children : List Field) (row : List (Text × Rich)) :
    richToCanonical dateText (.struct children) (.object row) =
      (structToCanonical dateText children (.object row) >>= fun members =>
        .ok (.object (OrderedMap.ofEntries members).entries)) := rfl

private theorem canonicalToRich_object (children : List Field) (members : List (Text × Value)) :
    canonicalToRich dateText (.struct children) (.object members) =
      (structToRich dateText children (.object members) >>= fun held =>
        .ok (.object (OrderedMap.ofEntries held).entries)) := rfl

private theorem storeCell_object (children : List Field) (members : List (Text × Value)) :
    storeCell (.struct children) (.object members) = .object (storeMembers children members) := rfl

private theorem fromCodec_ok {α : Type} (step : Except CodecError α) (value : α)
    (success : fromCodec step = .ok value) : step = .ok value := by
  cases step with
  | error fault => cases success
  | ok held =>
      cases success
      rfl

theorem argumentsBatch_eq (args : Arguments) (fits : ∀ entry ∈ structValues args, Fits entry.2) :
    argumentsBatch dateText args = .ok (sentBatch dateText args) := by
  have nodup := nodup_structValues args
  have row : (structValues args).mapM coerceEntry =
      .ok ((structValues args).map fun entry => (entry.1, coerced entry.2)) := by
    apply except_mapM_eq
    intro entry member
    rw [coerceEntry, coerceArgument_fits entry.2 (fits entry member)]
    rfl
  have members := structToCanonical_eq dateText (structValues args)
    ((structValues args).map fun entry => (entry.1, coerced entry.2))
    fun entry member => ⟨fits entry member, lookup_mapped _ _ nodup entry member⟩
  have canonicalNodup : (((structValues args).map fun entry =>
      (entry.1, canonicalOf dateText entry.2)).map Prod.fst).Nodup := by
    simpa [Function.comp_def] using nodup
  have stored := storeMembers_eq dateText (structValues args)
    ((structValues args).map fun entry => (entry.1, canonicalOf dateText entry.2))
    fun entry member => lookup_mapped _ _ nodup entry member
  rw [argumentsBatch, row, except_ok_bind, richToCanonical_object, members, except_ok_bind,
    OrderedMap.entries_ofEntries _ canonicalNodup, fromCodec, except_ok_bind, storeCell_object, stored]
  rfl

theorem fits_of_argumentsBatch (args : Arguments) (batch : Batch)
    (success : argumentsBatch dateText args = .ok batch) :
    ∀ entry ∈ structValues args, Fits entry.2 := by
  have nodup := nodup_structValues args
  obtain ⟨row, coercedAll, success⟩ := except_bind_ok _ _ _ success
  obtain ⟨canonical, written, success⟩ := except_bind_ok _ _ _ success
  have steps : ∀ entry ∈ structValues args, coerceEntry entry = .ok (entry.1, coerced entry.2) ∧
      ∀ number, entry.2 = .number number → number.toInt?.isSome := by
    intro entry member
    obtain ⟨result, _, step⟩ := except_mapM_each _ _ _ coercedAll entry member
    obtain ⟨value, coercedOk, rest⟩ := except_bind_ok _ _ _ step
    obtain ⟨valueEq, integral⟩ := coerceArgument_ok entry.2 value coercedOk
    refine ⟨?_, integral⟩
    rw [coerceEntry, coercedOk, valueEq]
    rfl
  have rowEq : row = (structValues args).map fun entry => (entry.1, coerced entry.2) := by
    have known := except_mapM_eq coerceEntry (fun entry => (entry.1, coerced entry.2))
      (structValues args) fun entry member => (steps entry member).1
    exact Except.ok.inj (coercedAll.symm.trans known)
  subst rowEq
  have writtenOk : ∃ members, structToCanonical dateText ((structValues args).map argumentField)
      (.object ((structValues args).map fun entry => (entry.1, coerced entry.2))) = .ok members := by
    obtain ⟨members, membersOk, _⟩ := except_bind_ok _ _ _ (fromCodec_ok _ _ written)
    exact ⟨members, membersOk⟩
  obtain ⟨members, membersOk⟩ := writtenOk
  intro entry member
  obtain ⟨held, value, found, valueOk⟩ := structToCanonical_ok dateText _ _ _ membersOk entry member
  rw [richMember, lookup_mapped _ _ nodup entry member] at found
  cases found
  exact fits_of_write dateText entry.2 value (steps entry member).2 valueOk

/-- The children the reader of the batch sees. -/
private def receivedValues (args : Arguments) : List (Text × Rich) :=
  (structValues args).map fun entry => (receivedName entry.1, entry.2)

private def receivedMembers (args : Arguments) : List (Text × Value) :=
  (structValues args).map fun entry => (receivedName entry.1, cellOf dateText entry.2)

private theorem argumentsOfBatch_sent (args : Arguments) :
    argumentsOfBatch dateText (receiveBatch (sentBatch dateText args)) =
      (fromCodec (canonicalToRich dateText (.struct ((receivedValues args).map argumentField))
        (.object (OrderedMap.ofEntries (receivedMembers dateText args)).entries)) >>= fun structVal =>
          let (positional, named) := (structMembers structVal).foldl addMember ([], .empty)
          .ok ⟨positional, named, some ⟨(receivedValues args).map argumentField, .empty⟩⟩) := by
  have nodup := nodup_structValues args
  have fieldsEq : receiveFields ((structValues args).map argumentField) =
      (receivedValues args).map argumentField := by
    rw [receiveFields_eq, receivedValues, List.map_map]
    rfl
  have membersEq := receiveMembers_eq dateText (structValues args)
    ((structValues args).map fun entry => (entry.1, cellOf dateText entry.2))
    fun entry member => lookup_mapped _ _ nodup entry member
  have argsName : receivedName (text "args") = text "args" := by decide
  have schemaEq : (receiveBatch (sentBatch dateText args)).schema.fields =
      [⟨text "args", .struct ((receivedValues args).map argumentField), true, .empty⟩] := by
    rw [← fieldsEq]
    change [(⟨receivedName (text "args"), _, _, _⟩ : Field)] = _
    rw [argsName]
    rfl
  have column : (receiveBatch (sentBatch dateText args)).getChild (text "args") =
      some [.object (OrderedMap.ofEntries (receivedMembers dateText args)).entries] := by
    rw [Batch.getChild, schemaEq, List.findIdx?_cons]
    simp only [decide_true, if_true, Option.bind_some]
    change some [Value.object (OrderedMap.ofEntries (receiveMembers _ _)).entries] = _
    rw [membersEq]
    rfl
  unfold argumentsOfBatch
  rw [if_neg (show (receiveBatch (sentBatch dateText args)).numRows ≠ 0 from Nat.one_ne_zero),
    schemaEq, column, List.find?_cons]
  simp only [decide_true]
  rfl

/-! ## Reading the members back -/

private theorem decimal_ne_nil (index : Nat) : Number.decimal index ≠ [] := by
  intro empty
  have value := Number.natOfDigits_decimal index
  rw [empty] at value
  obtain rfl : 0 = index := value
  revert empty
  decide

theorem parseInt?_decimal (index : Nat) : parseInt? (Number.decimal index) = some (index : Int) := by
  have digits : ∀ unit ∈ Number.decimal index, Number.isDigit unit = true := by
    intro unit member
    have range := Number.mem_decimal index unit member
    simp [Number.isDigit, Number.digitValue?, range]
  have value := Number.natOfDigits_decimal index
  have nonempty := decimal_ne_nil index
  generalize Number.decimal index = written at digits value nonempty
  cases written with
  | nil => exact absurd rfl nonempty
  | cons first rest =>
      have isDigit := digits first List.mem_cons_self
      have range : 48 ≤ first.toNat ∧ first.toNat ≤ 57 := by
        by_contra outside
        simp [Number.isDigit, Number.digitValue?, outside] at isDigit
      have noSpace : Number.isWhiteSpace first = false := by
        simp only [Number.isWhiteSpace, decide_eq_false_iff_not]
        omega
      have noSign : Number.takeSign (first :: rest) = (false, first :: rest) := by
        have notMinus : first ≠ 45 := by
          rintro rfl
          exact absurd range.1 (by decide)
        have notPlus : first ≠ 43 := by
          rintro rfl
          exact absurd range.1 (by decide)
        unfold Number.takeSign
        split
        · rename_i same
          exact absurd (List.cons.inj same).1 notMinus
        · rename_i same
          exact absurd (List.cons.inj same).1 notPlus
        · rfl
      have all : (first :: rest).takeWhile Number.isDigit = first :: rest :=
        List.takeWhile_eq_self_iff.mpr digits
      rw [parseInt?, List.dropWhile_cons_of_neg (by simp [noSpace]), noSign]
      simp only [all, nonempty, if_false, Bool.false_eq_true, value]

private theorem setPositional_next (positional : List Rich) (value : Rich) :
    setPositional positional (some (positional.length : Int)) value = positional ++ [value] := by
  change (positional ++ List.replicate (positional.length + 1 - positional.length) Rich.null).set
    positional.length value = _
  rw [Nat.add_sub_cancel_left, List.set_append_right _ _ (Nat.le_refl _), Nat.sub_self]
  rfl

private theorem addMember_positional (positional : List Rich) (named : OrderedMap Text Rich)
    (value : Rich) :
    addMember (positional, named)
      (positionalPrefix ++ Number.decimal positional.length, value) =
        (positional ++ [value], named) := by
  rw [addMember, if_pos (isPrefixOf_append _ _), List.drop_left, parseInt?_decimal,
    setPositional_next]

private theorem addMember_named (positional : List Rich) (named : OrderedMap Text Rich)
    (name : Text) (value : Rich) :
    addMember (positional, named) (namedPrefix ++ name, value) =
      (positional, named.set name value) := by
  rw [addMember, if_neg (by rw [positionalPrefix_not_named]; decide),
    if_pos (isPrefixOf_append _ _), List.drop_left]

private theorem foldl_positional (values read : List Rich) (named : OrderedMap Text Rich) :
    ((values.zipIdx read.length).map fun entry =>
        (positionalPrefix ++ Number.decimal entry.2, entry.1)).foldl addMember (read, named) =
      (read ++ values, named) := by
  induction values generalizing read with
  | nil => simp
  | cons value rest ih =>
      have later := ih (read ++ [value])
      rw [List.length_append, List.length_singleton] at later
      rw [List.zipIdx_cons, List.map_cons, List.foldl_cons, addMember_positional, later]
      simp

private theorem foldl_named (entries : List (Text × Rich)) (positional : List Rich)
    (named : OrderedMap Text Rich) :
    (entries.map fun entry => (namedPrefix ++ entry.1, entry.2)).foldl addMember (positional, named) =
      (positional, entries.foldl (fun map entry => map.set entry.1 entry.2) named) := by
  induction entries generalizing named with
  | nil => rfl
  | cons entry rest ih => rw [List.map_cons, List.foldl_cons, addMember_named, ih, List.foldl_cons]

/-- Whatever the members, the named arguments read come from members of the named prefix. -/
private theorem foldl_addMember_keys (members : List (Text × Rich)) (holds : Text → Prop)
    (each : ∀ member ∈ members, ∀ name, member.1 = namedPrefix ++ name → holds name)
    (read : List Rich × OrderedMap Text Rich) (before : ∀ key ∈ read.2.keys, holds key) :
    ∀ key ∈ (members.foldl addMember read).2.keys, holds key := by
  induction members generalizing read with
  | nil => exact before
  | cons first rest ih =>
      rw [List.foldl_cons]
      apply ih fun member later => each member (List.mem_cons_of_mem _ later)
      unfold addMember
      split
      · exact before
      · split
        · rename_i prefixed
          obtain ⟨name, same⟩ := List.isPrefixOf_iff_prefix.mp prefixed
          intro key member
          rw [← same, List.drop_left] at member
          rcases (OrderedMap.mem_keys_set _ _ _ _).mp member with rfl | earlier
          · exact each first List.mem_cons_self _ same.symm
          · exact before key earlier
        · exact before

private theorem structValues_mapped (args : Arguments) (f : Rich → Rich) :
    ((structValues args).map fun entry => (entry.1, f entry.2)) =
      ((args.positional.map f).zipIdx.map fun entry =>
          (positionalPrefix ++ Number.decimal entry.2, entry.1)) ++
        (args.named.entries.map fun entry => (entry.1, f entry.2)).map fun entry =>
          (namedPrefix ++ entry.1, entry.2) := by
  rw [structValues, List.map_append, List.zipIdx_map, List.map_map, List.map_map, List.map_map,
    List.map_map]
  rfl

/-- What the value of an argument reads back as. -/
def received (value : Rich) : Rich :=
  Rich.ofValue (cellOf dateText value)

/-- Arguments that fit, under well-formed names, come back one by one. -/
private theorem argumentsOfBatch_received (args : Arguments)
    (fits : ∀ entry ∈ structValues args, Fits entry.2)
    (wellFormed : ∀ entry ∈ args.named.entries, IsWellFormed entry.1) :
    argumentsOfBatch dateText (receiveBatch (sentBatch dateText args)) =
      .ok
        { positional := args.positional.map (received dateText)
          named := .ofEntries (args.named.entries.map fun entry => (entry.1, received dateText entry.2))
          argumentsSchema := some ⟨(structValues args).map argumentField, .empty⟩ } := by
  have nodup := nodup_structValues args
  have names : ∀ entry ∈ structValues args, receivedName entry.1 = entry.1 := by
    intro entry member
    rcases List.mem_append.mp member with positional | named
    · obtain ⟨value, _, rfl⟩ := List.mem_map.mp positional
      exact receivedName_positional _
    · obtain ⟨value, valueMem, rfl⟩ := List.mem_map.mp named
      have kept : toWellFormed value.1 = value.1 := wellFormed value valueMem
      exact (receivedName_named _).trans (by rw [kept])
  have valuesEq : receivedValues args = structValues args := by
    have each := List.map_congr_left fun entry member =>
      (Prod.ext (names entry member) rfl : (receivedName entry.1, entry.2) = entry)
    rw [receivedValues, each, List.map_id']
  have membersEq : receivedMembers dateText args =
      (structValues args).map fun entry => (entry.1, cellOf dateText entry.2) :=
    List.map_congr_left fun entry member => by rw [names entry member]
  have cellNodup : (((structValues args).map fun entry =>
      (entry.1, cellOf dateText entry.2)).map Prod.fst).Nodup := by
    simpa [Function.comp_def] using nodup
  have heldNodup : (((structValues args).map fun entry =>
      (entry.1, Rich.ofValue (cellOf dateText entry.2))).map Prod.fst).Nodup := by
    simpa [Function.comp_def] using nodup
  have read := structToRich_eq dateText (structValues args)
    ((structValues args).map fun entry => (entry.1, cellOf dateText entry.2))
    fun entry member => ⟨fits entry member, lookup_mapped _ _ nodup entry member⟩
  rw [argumentsOfBatch_sent, valuesEq, membersEq, OrderedMap.entries_ofEntries _ cellNodup,
    canonicalToRich_object, read, except_ok_bind, OrderedMap.entries_ofEntries _ heldNodup, fromCodec,
    except_ok_bind, structMembers]
  have folded := foldl_positional (args.positional.map (received dateText)) [] .empty
  rw [List.length_nil, List.nil_append] at folded
  have mapped := structValues_mapped args (received dateText)
  change ((structValues args).map fun entry => (entry.1, Rich.ofValue (cellOf dateText entry.2))) = _
    at mapped
  rw [mapped, List.foldl_append, folded, foldl_named]
  rfl

/-! ## Arguments -/

/-- The arguments that come back as they were. -/
def Arguments.SurviveWire (args : Arguments) : Prop :=
  (∀ value ∈ args.positional, SurvivesWire value) ∧
    ∀ entry ∈ args.named.entries, IsWellFormed entry.1 ∧ SurvivesWire entry.2

private theorem mem_structValues (args : Arguments) (value : Rich) :
    (∃ entry ∈ structValues args, entry.2 = value) ↔
      value ∈ args.positional ∨ ∃ entry ∈ args.named.entries, entry.2 = value := by
  constructor
  · rintro ⟨entry, member, rfl⟩
    rcases List.mem_append.mp member with positional | named
    · obtain ⟨indexed, indexedMem, rfl⟩ := List.mem_map.mp positional
      exact Or.inl (List.fst_mem_of_mem_zipIdx indexedMem)
    · obtain ⟨held, heldMem, rfl⟩ := List.mem_map.mp named
      exact Or.inr ⟨held, heldMem, rfl⟩
  · rintro (positional | ⟨entry, member, rfl⟩)
    · obtain ⟨index, bound, rfl⟩ := List.mem_iff_getElem.mp positional
      refine ⟨_, List.mem_append_left _ (List.mem_map.mpr
        ⟨(args.positional[index], index), ?_, rfl⟩), rfl⟩
      exact List.mk_mem_zipIdx_iff_getElem?.mpr (List.getElem?_eq_getElem bound)
    · exact ⟨_, List.mem_append_right _ (List.mem_map.mpr ⟨entry, member, rfl⟩), rfl⟩

private theorem get?_received (args : Arguments) (name : Text) :
    (OrderedMap.ofEntries (args.named.entries.map fun entry =>
        (entry.1, received dateText entry.2))).get? name =
      (args.named.get? name).map (received dateText) := by
  have nodup : ((args.named.entries.map fun entry =>
      (entry.1, received dateText entry.2)).map Prod.fst).Nodup := by
    simpa [Function.comp_def] using args.named.nodup
  rw [OrderedMap.get?_ofEntries _ nodup, OrderedMap.get?]
  induction args.named.entries with
  | nil => rfl
  | cons entry rest ih =>
      by_cases same : entry.1 = name
      · simp [lookupEntry, same]
      · simpa [lookupEntry, same] using ih

/-- The named arguments that come back have well-formed names. -/
private theorem wellFormed_of_received (args back : Arguments)
    (read : argumentsOfBatch dateText (receiveBatch (sentBatch dateText args)) = .ok back) :
    ∀ key ∈ back.named.keys, IsWellFormed key := by
  rw [argumentsOfBatch_sent, canonicalToRich_object] at read
  obtain ⟨structVal, decoded, read⟩ := except_bind_ok _ _ _ read
  obtain ⟨held, heldOk, decoded⟩ := except_bind_ok _ _ _ (fromCodec_ok _ _ decoded)
  cases decoded
  have names := structToRich_names dateText _ _ _ heldOk
  cases read
  apply foldl_addMember_keys _ IsWellFormed
  · intro member memberMem name same
    have key := OrderedMap.mem_keys_of_ofEntries held member.1
      (List.mem_map_of_mem (f := Prod.fst) memberMem)
    rw [names, receivedValues, List.map_map, List.map_map] at key
    obtain ⟨entry, entryMem, received⟩ := List.mem_map.mp key
    have received : receivedName entry.1 = namedPrefix ++ name := received.trans same
    rcases List.mem_append.mp entryMem with positional | named
    · obtain ⟨value, _, rfl⟩ := List.mem_map.mp positional
      rw [receivedName_positional] at received
      exact absurd received.symm (named_not_positional _ _)
    · obtain ⟨value, _, rfl⟩ := List.mem_map.mp named
      rw [receivedName_named] at received
      rw [← List.append_cancel_left received]
      exact toWellFormed_idem value.1
  · intro key none
    cases none

section

variable (serializeBatch : Batch → Bytes) (deserializeBatch : Bytes → Except Text Batch)
  (args : Arguments)
  (ipc : ∀ batch, argumentsBatch dateText args = .ok batch →
    serializeBatch batch ≠ [] ∧
      deserializeBatch (serializeBatch batch) = .ok (receiveBatch batch))

include ipc

theorem surviveWire_of_same (bytes : Bytes) (back : Arguments)
    (written : serializeArguments dateText serializeBatch args = .ok bytes)
    (read : deserializeArguments dateText deserializeBatch bytes = .ok back)
    (same : SameArguments args back) : args.SurviveWire := by
  obtain ⟨samePositional, sameNamed⟩ := same
  obtain ⟨batch, sent, written⟩ := except_bind_ok _ _ _ written
  cases written
  obtain ⟨present, streamed⟩ := ipc batch sent
  have fits := fits_of_argumentsBatch dateText args batch sent
  have batchEq := Except.ok.inj (sent.symm.trans (argumentsBatch_eq dateText args fits))
  rw [deserializeArguments, if_neg present, streamed, batchEq] at read
  have wellFormed : ∀ entry ∈ args.named.entries, IsWellFormed entry.1 := by
    intro entry member
    have same := sameNamed entry.1
    rw [(args.named.mem_entries_iff entry.1 entry.2).mp member] at same
    cases found : back.named.get? entry.1 with
    | none =>
        rw [found] at same
        cases same
    | some value =>
        apply wellFormed_of_received dateText args back read
        rw [OrderedMap.mem_keys_iff, found]
        rfl
  have read : argumentsOfBatch dateText (receiveBatch (sentBatch dateText args)) = .ok back := read
  rw [argumentsOfBatch_received dateText args fits wellFormed] at read
  cases read
  have fitsValue : ∀ value, (∃ entry ∈ structValues args, entry.2 = value) → Fits value := by
    rintro value ⟨entry, member, rfl⟩
    exact fits entry member
  refine ⟨fun value member => ?_, fun entry member => ⟨wellFormed entry member, ?_⟩⟩
  · have each := (List.forall₂_map_right_iff.mp samePositional)
    have same := List.forall₂_same.mp each value member
    exact (sameValue_received_iff dateText value
      (fitsValue value ((mem_structValues args value).mpr (Or.inl member)))).mp same
  · have same := sameNamed entry.1
    rw [get?_received, (args.named.mem_entries_iff entry.1 entry.2).mp member] at same
    cases same with
    | some same =>
        exact (sameValue_received_iff dateText entry.2
          (fitsValue _ ((mem_structValues args _).mpr (Or.inr ⟨entry, member, rfl⟩)))).mp same

theorem same_of_surviveWire (survive : args.SurviveWire) :
    ∃ bytes back, serializeArguments dateText serializeBatch args = .ok bytes ∧ bytes ≠ [] ∧
      deserializeArguments dateText deserializeBatch bytes = .ok back ∧ SameArguments args back := by
  obtain ⟨positional, named⟩ := survive
  have fits : ∀ entry ∈ structValues args, Fits entry.2 := by
    intro entry member
    rcases (mem_structValues args entry.2).mp ⟨entry, member, rfl⟩ with held | ⟨other, held, same⟩
    · exact fits_of_survives _ (positional _ held)
    · exact same ▸ fits_of_survives _ (named other held).2
  have sent := argumentsBatch_eq dateText args fits
  obtain ⟨present, streamed⟩ := ipc _ sent
  have written : serializeArguments dateText serializeBatch args =
      .ok (serializeBatch (sentBatch dateText args)) := by
    rw [serializeArguments, sent]
    rfl
  have decoded : deserializeArguments dateText deserializeBatch
      (serializeBatch (sentBatch dateText args)) =
        argumentsOfBatch dateText (receiveBatch (sentBatch dateText args)) := by
    rw [deserializeArguments, if_neg present, streamed]
  have read := argumentsOfBatch_received dateText args fits fun entry member =>
    (named entry member).1
  refine ⟨_, _, written, present, decoded.trans read, ?_, ?_⟩
  · apply List.forall₂_map_right_iff.mpr
    apply List.forall₂_same.mpr
    intro value member
    exact (sameValue_received_iff dateText value
      (fits_of_survives _ (positional value member))).mpr (positional value member)
  · intro name
    rw [get?_received]
    cases found : args.named.get? name with
    | none => exact .none
    | some value =>
        have survives := (named (name, value) ((args.named.mem_entries_iff _ _).mpr found)).2
        exact .some ((sameValue_received_iff dateText value
          (fits_of_survives _ survives)).mpr survives)

end

end

/-! ## Sample arguments -/

def sampleArguments : Arguments where
  positional := [.number (Number.ofInt 3), .string (text "a"), .null]
  named := .ofEntries [(text "limit", .bool true)]
  argumentsSchema := none

end VgiWorker.Protocol
