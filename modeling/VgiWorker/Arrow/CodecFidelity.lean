import VgiWorker.Arrow.StoredIntegers

/-!
# What a column gives back

A value an author supplies goes through the codec of its type and into a column;
this is when the column reads back the canonical value that went in.
-/

set_option autoImplicit false

namespace VgiWorker.Arrow

open VgiWorker.Js

/-- The types without children, of the widths that Arrow has. -/
def DataType.IsScalar : DataType → Prop
  | .int bitWidth _ => bitWidth = 8 ∨ bitWidth = 16 ∨ bitWidth = 32 ∨ bitWidth = 64
  | .decimal bitWidth _ _ => bitWidth = 32 ∨ bitWidth = 64 ∨ bitWidth = 128 ∨ bitWidth = 256
  | .list _ | .struct _ | .union _ _ _ | .fixedSizeList _ _ | .map _ _ | .dictionary _ _ _ _ => False
  | _ => True

/-- The time value of a `Date` is clipped. -/
def Rich.IsAuthored : Rich → Prop
  | .date time => ∃ ms, time = makeDate ms
  | _ => True

section

variable (library : VectorLibrary) (dateText : Number → Text)

/-- What a column of the type can hold of a canonical value: a float is rounded. -/
def rounded : DataType → Value → Value
  | .float precision, .number value => .number (library.round precision value)
  | _, value => value

/-- In every column of the type the value is refused, by the codec or by the writer, or the
reader gives back its canonical value. -/
def CellLossless (type : DataType) (value : Rich) : Prop :=
  ∀ before after canonical column,
    (before ++ value :: after).mapM (richToCanonical dateText type) = .ok canonical →
    writeCanonicalColumn library type canonical = .ok column →
    ∃ given, canonical[before.length]? = some given ∧
      readFromData library type column before.length = rounded library type given

/-! ## The values that fit -/

/-- A day number or a 32-bit time; a `Date` is of some day. -/
def FitsInt32 : Rich → Prop
  | .number value => value ≠ .negativeZero ∧ ∀ integer, value.toInt? = some integer →
      InSigned 32 integer
  | .bigint value => InSigned 32 value ∨ Number.maxSafeInteger < value.natAbs
  | _ => True

def FitsInt64 : Rich → Prop
  | .number value => ∀ integer, value.toInt? = some integer → InSigned 64 integer
  | .bigint value => InSigned 64 value
  | _ => True

/-- An integer column of 64 bits takes a number in its range, and gives back a bigint. -/
def FitsIntColumn (bitWidth : Nat) (signed : Bool) : Rich → Prop
  | .number value =>
      if bitWidth = 64 then ∀ integer, value.toInt? = some integer →
        ¬((intRange 64 signed).1 ≤ integer ∧ integer ≤ (intRange 64 signed).2)
      else value ≠ .negativeZero
  | _ => True

def FitsDecimal (bitWidth : Nat) : Rich → Prop
  | .number value => ∀ integer, value.toInt? = some integer → InSigned bitWidth integer
  | .bigint value => InSigned bitWidth value
  | .bytes value => InSigned bitWidth (decimalViewToBigInt value)
  | _ => True

def FitsFloat (precision : Precision) : Rich → Prop
  | .number value => precision = .half → library.round .half value = .zero
  | _ => True

/-- Text without lone surrogates and with no byte order mark in front. -/
def FitsText (value : Text) : Prop :=
  dropBom (toWellFormed value) = value

def Fits (type : DataType) (value : Rich) : Prop :=
  if isRichNull value then True
  else
    match type with
    | .int bitWidth signed => FitsIntColumn bitWidth signed value
    | .float precision => FitsFloat library precision value
    | .utf8 | .largeUtf8 => FitsText (value.toText dateText)
    | .decimal bitWidth _ _ => FitsDecimal bitWidth value
    | .date .day => FitsInt32 value
    | .date .millisecond => FitsInt64 value
    | .time _ bitWidth => if bitWidth = 64 then FitsInt64 value else FitsInt32 value
    | .timestamp _ _ | .duration _ => FitsInt64 value
    | .interval unit => library.intervals unit value.toValue →
        library.intervalCell unit value.toValue = value.toValue
    | _ => True

/-! ## One cell of a column -/

/-- The reader gives `read` for the cell wherever it stands. -/
def Reads (type : DataType) (cell read : Value) : Prop :=
  ∀ cells column index, writeCanonicalColumn library type cells = .ok column →
    cells[index]? = some cell → readFromData library type column index = read

private theorem getElem?_middle {α : Type} (before : List α) (value : α) (after : List α) :
    (before ++ value :: after)[before.length]? = some value := by
  simp

private theorem cellLossless_of_refused (type : DataType) (value : Rich)
    (refused : ∀ cell, richToCanonical dateText type value ≠ .ok cell) :
    CellLossless library dateText type value := by
  intro before after canonical column converted _
  obtain ⟨given, _, converts⟩ := except_mapM_getElem? _ _ canonical converted before.length value
    (getElem?_middle before value after)
  exact absurd converts (refused given)

private theorem cellLossless_of_unwritable (type : DataType) (value : Rich) (cell : Value)
    (converts : richToCanonical dateText type value = .ok cell)
    (unwritable : ∀ cells column, writeCanonicalColumn library type cells = .ok column →
      cell ∉ cells) :
    CellLossless library dateText type value := by
  intro before after canonical column converted written
  obtain ⟨given, isGiven, same⟩ := except_mapM_getElem? _ _ canonical converted before.length value
    (getElem?_middle before value after)
  rw [converts] at same
  cases same
  exact absurd (List.mem_of_getElem? isGiven) (unwritable canonical column written)

/-- A value that a column takes is kept exactly when the reader gives its canonical value. -/
private theorem cellLossless_iff (type : DataType) (value : Rich) (cell read : Value)
    (converts : richToCanonical dateText type value = .ok cell)
    (written : ∃ column, writeCanonicalColumn library type [cell] = .ok column)
    (reads : Reads library type cell read) :
    CellLossless library dateText type value ↔ read = rounded library type cell := by
  constructor
  · intro lossless
    obtain ⟨column, written⟩ := written
    obtain ⟨given, isGiven, same⟩ := lossless [] [] [cell] column
      (by simp [converts]) written
    cases isGiven
    exact (reads [cell] column 0 written rfl).symm.trans same
  · intro same before after canonical column converted written
    obtain ⟨given, isGiven, alike⟩ := except_mapM_getElem? _ _ canonical converted before.length
      value (getElem?_middle before value after)
    rw [converts] at alike
    cases alike
    exact ⟨cell, isGiven, (reads canonical column before.length written isGiven).trans same⟩

/-! ## Reading what was written -/

private theorem isValid_validity (cells : List Value) (index : Nat) (cell : Value)
    (here : cells[index]? = some cell) :
    (validity cells)[index]?.getD false = !isCanonicalNull cell := by
  simp [validity, here]

theorem isCanonicalNull_iff (cell : Value) : isCanonicalNull cell = true ↔ cell = .null := by
  cases cell <;> simp [isCanonicalNull]

private theorem buildBigIntData_ok (cells : List Value) (column : ColumnData library)
    (built : buildBigIntData library cells = .ok column) :
    ∃ buf, column = .bigInt (validity cells) buf ∧ cells.mapM bigIntCell = .ok buf := by
  obtain ⟨buf, stored, built⟩ := except_bind_ok _ _ _ built
  cases built
  exact ⟨buf, rfl, stored⟩

private theorem buildDecimalData_ok (cells : List Value) (byteWidth : Nat)
    (column : ColumnData library) (built : buildDecimalData library cells byteWidth = .ok column) :
    ∃ chunks, column = .decimal (validity cells) chunks.flatten ∧
      cells.mapM (decimalCell byteWidth) = .ok chunks := by
  obtain ⟨chunks, stored, built⟩ := except_bind_ok _ _ _ built
  cases built
  exact ⟨chunks, rfl, stored⟩

private theorem vector_ok (type : DataType) (cells : List Value) (column : ColumnData library)
    (built : ColumnData.vector <$> library.vectorFromArray type cells = .ok column) :
    ∃ vector, column = .vector vector ∧ library.vectorFromArray type cells = .ok vector := by
  cases made : library.vectorFromArray type cells with
  | error fault => rw [made] at built; cases built
  | ok vector =>
      rw [made] at built
      cases built
      exact ⟨vector, rfl, rfl⟩

private theorem isValid_int32 (cells : List Value) (column : ColumnData library) (index : Nat)
    (cell : Value) (here : cells[index]? = some cell)
    (built : buildInt32Data library cells = .ok column) :
    isValid library column index = !isCanonicalNull cell := by
  cases built
  exact isValid_validity cells index cell here

private theorem isValid_bigInt (cells : List Value) (column : ColumnData library) (index : Nat)
    (cell : Value) (here : cells[index]? = some cell)
    (built : buildBigIntData library cells = .ok column) :
    isValid library column index = !isCanonicalNull cell := by
  obtain ⟨buf, rfl, _⟩ := buildBigIntData_ok library cells column built
  exact isValid_validity cells index cell here

private theorem isValid_vector (type : DataType) (cells : List Value) (column : ColumnData library)
    (index : Nat) (cell : Value) (here : cells[index]? = some cell) (notNull : type ≠ .null)
    (built : ColumnData.vector <$> library.vectorFromArray type cells = .ok column) :
    isValid library column index = !isCanonicalNull cell := by
  obtain ⟨vector, rfl, made⟩ := vector_ok library type cells column built
  exact library.validOf type cells vector index cell made here notNull

/-- Every column knows which of its cells are null. -/
theorem isValid_written (type : DataType) (cells : List Value) (column : ColumnData library)
    (index : Nat) (cell : Value) (here : cells[index]? = some cell) (notNull : type ≠ .null)
    (written : writeCanonicalColumn library type cells = .ok column) :
    isValid library column index = !isCanonicalNull cell := by
  unfold writeCanonicalColumn at written
  split at written
  · obtain ⟨chunks, rfl, _⟩ := buildDecimalData_ok library cells _ column written
    exact isValid_validity cells index cell here
  · exact isValid_int32 library cells column index cell here written
  · exact isValid_bigInt library cells column index cell here written
  · split at written
    · exact isValid_bigInt library cells column index cell here written
    · exact isValid_int32 library cells column index cell here written
  · exact isValid_bigInt library cells column index cell here written
  · exact isValid_bigInt library cells column index cell here written
  · split at written
    · exact isValid_bigInt library cells column index cell here written
    · exact isValid_vector library _ cells column index cell here notNull written
  · exact isValid_vector library _ cells column index cell here notNull written

/-- A null reads as null. -/
theorem reads_null (type : DataType) : Reads library type .null .null := by
  intro cells column index written here
  by_cases null : type = .null
  · subst null
    unfold readFromData
    split <;> rfl
  · have valid := isValid_written library type cells column index .null here null written
    unfold readFromData
    rw [if_pos (by rw [valid]; decide)]

/-- A cell that is not null is read by its type. -/
private theorem readFromData_valid (type : DataType) (cells : List Value)
    (column : ColumnData library) (index : Nat) (cell : Value)
    (written : writeCanonicalColumn library type cells = .ok column)
    (here : cells[index]? = some cell) (typeNotNull : type ≠ .null) (notNull : cell ≠ .null) :
    isValid library column index = true := by
  rw [isValid_written library type cells column index cell here typeNotNull written]
  cases cell <;> first | rfl | exact absurd rfl notNull

/-! ### 32-bit arrays -/

/-- A column of an `Int32Array`. -/
structure InInt32 (type : DataType) : Prop where
  notNull : type ≠ .null
  writes : ∀ cells, writeCanonicalColumn library type cells = buildInt32Data library cells
  reads : ∀ column index, isValid library column index = true →
    readFromData library type column index = .number (numberAt library column index)
  exact : ∀ cell, rounded library type cell = cell

theorem inInt32_date : InInt32 library (.date .day) where
  notNull := nofun
  writes := fun _ => rfl
  reads := fun column index valid => by simp [readFromData, valid]
  exact := fun _ => rfl

theorem inInt32_time (unit : TimeUnit) (bitWidth : Nat) (narrow : bitWidth ≠ 64) :
    InInt32 library (.time unit bitWidth) where
  notNull := nofun
  writes := fun cells => by simp [writeCanonicalColumn, narrow]
  reads := fun column index valid => by simp [readFromData, valid, narrow]
  exact := fun _ => rfl

theorem reads_int32 (type : DataType) (stored : InInt32 library type) (number : Number)
    (integer : Int) (integral : number.toInt? = some integer) :
    Reads library type (.number number) (.number (Number.ofInt (wrapInt 32 true integer))) := by
  intro cells column index written here
  have valid := readFromData_valid library type cells column index _ written here stored.notNull
    nofun
  rw [stored.writes] at written
  cases written
  rw [stored.reads _ index valid]
  simp [numberAt, here, int32Cell, Value.toNumber, toInt32_of_toInt? number integer integral]

private theorem lossless_int32_iff (type : DataType) (stored : InInt32 library type) (value : Rich)
    (number : Number) (integer : Int)
    (converts : richToCanonical dateText type value = .ok (.number number))
    (integral : number.toInt? = some integer) :
    CellLossless library dateText type value ↔
      number ≠ .negativeZero ∧ InSigned 32 integer := by
  rw [cellLossless_iff library dateText type value _ _ converts ⟨_, stored.writes _⟩
    (reads_int32 library type stored number integer integral), stored.exact, Value.number.injEq]
  exact ofInt_wrapInt_iff number integer integral

/-! ### 64-bit arrays -/

/-- A column of 64-bit integers, read by a type of this signedness. -/
structure InBigInt (type : DataType) (signed : Bool) : Prop where
  notNull : type ≠ .null
  writes : ∀ cells, writeCanonicalColumn library type cells = buildBigIntData library cells
  reads : ∀ column index, isValid library column index = true →
    readFromData library type column index = .bigint (bigIntAt library signed column index)
  exact : ∀ cell, rounded library type cell = cell

theorem inBigInt_int (signed : Bool) : InBigInt library (.int 64 signed) signed where
  notNull := nofun
  writes := fun _ => rfl
  reads := fun column index valid => by simp [readFromData, valid]
  exact := fun _ => rfl

theorem inBigInt_date : InBigInt library (.date .millisecond) true where
  notNull := nofun
  writes := fun _ => rfl
  reads := fun column index valid => by simp [readFromData, valid]
  exact := fun _ => rfl

theorem inBigInt_time (unit : TimeUnit) : InBigInt library (.time unit 64) true where
  notNull := nofun
  writes := fun _ => rfl
  reads := fun column index valid => by simp [readFromData, valid]
  exact := fun _ => rfl

theorem inBigInt_timestamp (unit : TimeUnit) (timezone : Option Text) :
    InBigInt library (.timestamp unit timezone) true where
  notNull := nofun
  writes := fun _ => rfl
  reads := fun column index valid => by simp [readFromData, valid]
  exact := fun _ => rfl

theorem inBigInt_duration (unit : TimeUnit) : InBigInt library (.duration unit) true where
  notNull := nofun
  writes := fun _ => rfl
  reads := fun column index valid => by simp [readFromData, valid]
  exact := fun _ => rfl

private theorem bigIntCell_eq (cell : Value) (integer : Int) (notNull : cell ≠ .null)
    (denotes : bigIntOf cell = .ok integer) : bigIntCell cell = .ok (wrapInt 64 true integer) := by
  cases cell with
  | null => exact absurd rfl notNull
  | _ => simp [bigIntCell, denotes]

theorem reads_bigInt (type : DataType) (signed : Bool) (stored : InBigInt library type signed)
    (cell : Value) (integer : Int) (notNull : cell ≠ .null)
    (denotes : bigIntOf cell = .ok integer) :
    Reads library type cell (.bigint (wrapInt 64 signed integer)) := by
  intro cells column index written here
  have valid := readFromData_valid library type cells column index cell written here
    stored.notNull notNull
  rw [stored.writes] at written
  obtain ⟨buf, rfl, made⟩ := buildBigIntData_ok library cells column written
  obtain ⟨held, isHeld, alike⟩ := except_mapM_getElem? _ _ _ made index cell here
  rw [bigIntCell_eq cell integer notNull denotes] at alike
  cases alike
  rw [stored.reads _ index valid, bigIntAt, isHeld, Option.getD_some, wrapInt_wrapInt]

private theorem lossless_bigInt_iff (type : DataType) (signed : Bool)
    (stored : InBigInt library type signed) (value : Rich) (cell : Value) (integer : Int)
    (converts : richToCanonical dateText type value = .ok cell) (notNull : cell ≠ .null)
    (denotes : bigIntOf cell = .ok integer) :
    CellLossless library dateText type value ↔
      .bigint (wrapInt 64 signed integer) = cell := by
  have written : ∃ column, writeCanonicalColumn library type [cell] = .ok column := by
    refine ⟨.bigInt (validity [cell]) [wrapInt 64 true integer], ?_⟩
    rw [stored.writes, buildBigIntData, List.mapM_cons, bigIntCell_eq cell integer notNull denotes]
    rfl
  rw [cellLossless_iff library dateText type value cell _ converts written
    (reads_bigInt library type signed stored cell integer notNull denotes), stored.exact]

private theorem lossless_signed_iff (type : DataType) (stored : InBigInt library type true)
    (value : Rich) (integer : Int)
    (converts : richToCanonical dateText type value = .ok (.bigint integer)) :
    CellLossless library dateText type value ↔ InSigned 64 integer := by
  rw [lossless_bigInt_iff library dateText type true stored value (.bigint integer) integer converts
    nofun rfl, Value.bigint.injEq]
  exact wrapInt_signed_iff 64 (by decide) integer

/-! ### Decimals -/

private theorem take_drop_flatten (width : Nat) (chunks : List Bytes)
    (lengths : ∀ chunk ∈ chunks, chunk.length = width) (index : Nat) (chunk : Bytes)
    (here : chunks[index]? = some chunk) :
    (chunks.flatten.drop (index * width)).take width = chunk := by
  induction chunks generalizing index with
  | nil => cases here
  | cons first rest ih =>
      have firstLength := lengths first List.mem_cons_self
      cases index with
      | zero =>
          cases here
          rw [Nat.zero_mul, List.drop_zero, List.flatten_cons, ← firstLength, List.take_left]
      | succ index =>
          have skip : (index + 1) * width = first.length + index * width := by
            rw [firstLength, Nat.succ_mul, Nat.add_comm]
          rw [List.flatten_cons, skip, List.drop_length_add_append]
          exact ih (fun other member => lengths other (List.mem_cons_of_mem _ member)) index here

private theorem length_decimalCell (byteWidth : Nat) (cell : Value) (chunk : Bytes)
    (made : decimalCell byteWidth cell = .ok chunk) : chunk.length = byteWidth := by
  cases cell with
  | null => cases made; exact List.length_replicate
  | bytes value =>
      cases made
      simp only [List.length_append, List.length_take, List.length_replicate]
      omega
  | _ =>
      obtain ⟨integer, _, made⟩ := except_bind_ok _ _ _ made
      cases made
      exact length_bigIntToDecimalBytes integer byteWidth

private theorem decimal_widths (bitWidth precision : Nat) (scale : Int)
    (scalar : (DataType.decimal bitWidth precision scale).IsScalar) :
    8 * (bitWidth / 8) = bitWidth ∧ 0 < bitWidth / 8 := by
  rcases scalar with rfl | rfl | rfl | rfl <;> decide

theorem reads_decimal (bitWidth precision : Nat) (scale : Int)
    (scalar : (DataType.decimal bitWidth precision scale).IsScalar) (integer : Int) :
    Reads library (.decimal bitWidth precision scale) (.bigint integer)
      (.bigint (wrapInt bitWidth true integer)) := by
  obtain ⟨width, positive⟩ := decimal_widths bitWidth precision scale scalar
  intro cells column index written here
  have valid := readFromData_valid library _ cells column index _ written here nofun nofun
  obtain ⟨chunks, rfl, made⟩ := buildDecimalData_ok library cells _ column written
  obtain ⟨chunk, isChunk, alike⟩ := except_mapM_getElem? _ _ _ made index _ here
  have lengths : ∀ chunk ∈ chunks, chunk.length = bitWidth / 8 := by
    intro chunk member
    obtain ⟨cell, _, made⟩ := except_mapM_sources _ _ _ made chunk member
    exact length_decimalCell _ cell chunk made
  cases alike
  have bytes := take_drop_flatten _ chunks lengths index _ isChunk
  simp only [readFromData, valid, not_true_eq_false, if_false, decimalToBigInt, bytes,
    decimalViewToBigInt_bytes integer _ positive, width, wrapInt, if_true]

private theorem lossless_decimal_iff (bitWidth precision : Nat) (scale : Int)
    (scalar : (DataType.decimal bitWidth precision scale).IsScalar) (value : Rich) (integer : Int)
    (converts : richToCanonical dateText (.decimal bitWidth precision scale) value =
      .ok (.bigint integer)) :
    CellLossless library dateText (.decimal bitWidth precision scale) value ↔
      InSigned bitWidth integer := by
  have widths := decimal_widths bitWidth precision scale scalar
  refine (cellLossless_iff library dateText _ value _ _ converts ⟨_, rfl⟩
    (reads_decimal library bitWidth precision scale scalar integer)).trans ?_
  refine Iff.trans ?_ (bmod_eq_self_iff bitWidth (by omega) integer)
  exact ⟨fun same => Value.bigint.inj same, fun same => congrArg Value.bigint same⟩

/-! ### Vectors of the library -/

/-- A column that the library builds. -/
structure InVector (type : DataType) : Prop where
  notNull : type ≠ .null
  writes : ∀ cells, writeCanonicalColumn library type cells =
    ColumnData.vector <$> library.vectorFromArray type cells

/-- What the library gives for the cell in any vector it builds. -/
theorem reads_vector (type : DataType) (stored : InVector library type) (cell read : Value)
    (notNull : cell ≠ .null)
    (reads : ∀ cells vector index, library.vectorFromArray type cells = .ok vector →
      cells[index]? = some cell → library.isValid vector index = true →
      readFromData library type (.vector vector) index = read) :
    Reads library type cell read := by
  intro cells column index written here
  have valid := readFromData_valid library type cells column index cell written here
    stored.notNull notNull
  rw [stored.writes] at written
  obtain ⟨vector, rfl, made⟩ := vector_ok library type cells column written
  exact reads cells vector index made here valid

private theorem lossless_vector_iff (type : DataType) (stored : InVector library type)
    (value : Rich) (cell read : Value)
    (converts : richToCanonical dateText type value = .ok cell) (notNull : cell ≠ .null)
    (buildable : Buildable library.intervals type cell)
    (reads : ∀ cells vector index, library.vectorFromArray type cells = .ok vector →
      cells[index]? = some cell → library.isValid vector index = true →
      readFromData library type (.vector vector) index = read) :
    CellLossless library dateText type value ↔ read = rounded library type cell := by
  have written : ∃ column, writeCanonicalColumn library type [cell] = .ok column := by
    obtain ⟨vector, made⟩ := library.builds type [cell] fun other member => by
      obtain rfl := List.mem_singleton.mp member
      exact .inr buildable
    refine ⟨.vector vector, ?_⟩
    rw [stored.writes, made]
    rfl
  exact cellLossless_iff library dateText type value cell read converts written
    (reads_vector library type stored cell read notNull reads)

/-- A value the library refuses. -/
private theorem lossless_of_bigint (type : DataType) (stored : InVector library type)
    (numbers : type.KeepsNumbers) (value : Rich) (integer : Int)
    (converts : richToCanonical dateText type value = .ok (.bigint integer)) :
    CellLossless library dateText type value := by
  refine cellLossless_of_unwritable library dateText type value _ converts ?_
  intro cells column written
  rw [stored.writes] at written
  obtain ⟨vector, _, made⟩ := vector_ok library type cells column written
  exact library.refusesBigint type cells vector numbers made integer

private theorem lossless_null (type : DataType) (value : Rich)
    (converts : richToCanonical dateText type value = .ok .null) :
    CellLossless library dateText type value := by
  intro before after canonical column converted written
  obtain ⟨given, isGiven, alike⟩ := except_mapM_getElem? _ _ canonical converted before.length
    _ (getElem?_middle before value after)
  rw [converts] at alike
  cases alike
  refine ⟨.null, isGiven, (reads_null library type canonical column _ written isGiven).trans ?_⟩
  cases type <;> rfl

/-! ## Every type -/

private theorem integral_of_negativeZero (number : Number) (integral : number.toInt? = none) :
    number ≠ .negativeZero := by
  rintro rfl
  cases integral

private theorem int32_iff (type : DataType) (stored : InInt32 library type) (label message : String)
    (numbers : ∀ value, richToCanonical dateText type (.number value) =
      integerOf value label message >>= fun _ => .ok (.number value))
    (bigints : ∀ value, richToCanonical dateText type (.bigint value) =
      .number <$> bigIntToSafeNumber label value) (value : Rich)
    (kind : (∃ held, value = .number held) ∨ ∃ held, value = .bigint held) :
    CellLossless library dateText type value ↔ FitsInt32 value := by
  rcases kind with ⟨held, rfl⟩ | ⟨held, rfl⟩
  · cases integral : held.toInt? with
    | none =>
        refine iff_of_true (cellLossless_of_refused library dateText _ _ fun cell converts => ?_) ?_
        · rw [numbers, integerOf, integral] at converts
          cases converts
        · exact ⟨integral_of_negativeZero held integral, fun _ same => by
            rw [integral] at same; cases same⟩
    | some integer =>
        rw [lossless_int32_iff library dateText type stored _ held integer
          (by rw [numbers, integerOf, integral]; rfl) integral]
        simp [FitsInt32, integral]
  · by_cases safe : held.natAbs ≤ Number.maxSafeInteger
    · obtain ⟨integral, nonzero⟩ := toInt?_ofInt_safe held safe
      rw [lossless_int32_iff library dateText type stored _ (Number.ofInt held) held
        (by rw [bigints, bigIntToSafeNumber, if_pos safe]; rfl) integral, and_iff_right nonzero]
      exact (or_iff_left (Nat.not_lt.mpr safe)).symm
    · refine iff_of_true (cellLossless_of_refused library dateText _ _ fun cell converts => ?_)
        (.inr (Nat.lt_of_not_le safe))
      rw [bigints, bigIntToSafeNumber, if_neg safe] at converts
      cases converts

private theorem makeDate_cases (ms : Int) :
    makeDate ms = .nan ∨
      (makeDate ms).toInt? = some ms ∧ -8640000000000000 ≤ ms ∧ ms ≤ 8640000000000000 := by
  unfold makeDate
  split
  · rename_i inside
    have bound : ms.natAbs ≤ 8640000000000000 := inside
    refine .inr ⟨(toInt?_ofInt_safe ms ?_).1, by omega⟩
    unfold Number.maxSafeInteger
    omega
  · exact .inl rfl

private theorem date32_iff (value : Rich) (authored : value.IsAuthored)
    (notNull : isRichNull value = false) :
    CellLossless library dateText (.date .day) value ↔ FitsInt32 value := by
  have stored := inInt32_date library
  have common := int32_iff library dateText _ stored "date32" "day-number must be an integer"
    (fun value => rfl) (fun value => rfl)
  cases value with
  | null => cases notNull
  | number held => exact common _ (.inl ⟨held, rfl⟩)
  | bigint held => exact common _ (.inr ⟨held, rfl⟩)
  | date time =>
      obtain ⟨ms, rfl⟩ := authored
      refine iff_of_true ?_ trivial
      rcases makeDate_cases ms with invalid | ⟨integral, low, high⟩
      · rw [invalid]
        refine cellLossless_of_refused library dateText _ _ fun cell made => ?_
        cases made
      · have day : -100000000 ≤ ms.fdiv msPerDay ∧ ms.fdiv msPerDay ≤ 100000000 := by
          rw [Int.fdiv_eq_ediv_of_nonneg ms (by decide)]
          unfold msPerDay
          omega
        obtain ⟨dayIntegral, nonzero⟩ := toInt?_ofInt_safe (ms.fdiv msPerDay) (by
          unfold Number.maxSafeInteger
          omega)
        refine (lossless_int32_iff library dateText _ stored _ (Number.ofInt (ms.fdiv msPerDay)) _ ?_
          dayIntegral).mpr ⟨nonzero, ?_⟩
        · simp [richToCanonical, isRichNull, scalarToCanonical, dateDayToCanonical, dayOfTime,
            integral]
        · unfold InSigned
          omega
  | _ =>
      refine iff_of_true (cellLossless_of_refused library dateText _ _ fun cell made => ?_) trivial
      cases made

private theorem time32_iff (unit : TimeUnit) (bitWidth : Nat) (narrow : bitWidth ≠ 64)
    (value : Rich) (notNull : isRichNull value = false) :
    CellLossless library dateText (.time unit bitWidth) value ↔ FitsInt32 value := by
  have converts (value : Rich) (some : isRichNull value = false) :
      richToCanonical dateText (.time unit bitWidth) value = time32ToCanonical value := by
    simp [richToCanonical, some, scalarToCanonical, narrow]
  have common := int32_iff library dateText _ (inInt32_time library unit bitWidth narrow) "time32"
    "time32 value must be an integer" (fun value => converts _ rfl) (fun value => converts _ rfl)
  cases value with
  | null => cases notNull
  | number held => exact common _ (.inl ⟨held, rfl⟩)
  | bigint held => exact common _ (.inr ⟨held, rfl⟩)
  | _ =>
      refine iff_of_true (cellLossless_of_refused library dateText _ _ fun cell => ?_) trivial
      rw [converts _ rfl]
      nofun

/-- The types whose codec makes a bigint of an integer, `Date`s apart. -/
private theorem int64_iff (type : DataType) (stored : InBigInt library type true) (label : String)
    (value : Rich)
    (converts : richToCanonical dateText type value = .bigint <$> toBigIntStrict label value) :
    CellLossless library dateText type value ↔ FitsInt64 value := by
  cases value with
  | number held =>
      cases integral : held.toInt? with
      | none =>
          refine iff_of_true (cellLossless_of_refused library dateText _ _ fun cell made => ?_)
            fun _ same => by rw [integral] at same; cases same
          rw [converts, toBigIntStrict, integerOf, integral] at made
          cases made
      | some integer =>
          rw [lossless_signed_iff library dateText type stored _ integer
            (by rw [converts, toBigIntStrict, integerOf, integral]; rfl)]
          simp [FitsInt64, integral]
  | bigint held => exact lossless_signed_iff library dateText type stored _ held converts
  | _ =>
      refine iff_of_true (cellLossless_of_refused library dateText _ _ fun cell made => ?_) trivial
      rw [converts] at made
      cases made

private theorem date64_iff (value : Rich) (authored : value.IsAuthored)
    (notNull : isRichNull value = false) :
    CellLossless library dateText (.date .millisecond) value ↔ FitsInt64 value := by
  have stored := inBigInt_date library
  cases value with
  | null => cases notNull
  | date time =>
      obtain ⟨ms, rfl⟩ := authored
      refine iff_of_true ?_ trivial
      rcases makeDate_cases ms with invalid | ⟨integral, low, high⟩
      · rw [invalid]
        refine cellLossless_of_refused library dateText _ _ fun cell made => ?_
        cases made
      · refine (lossless_signed_iff library dateText _ stored _ ms ?_).mpr ?_
        · simp [richToCanonical, isRichNull, scalarToCanonical, dateMillisToCanonical, integerOf,
            integral]
        · unfold InSigned
          omega
  | number held =>
      cases integral : held.toInt? with
      | none =>
          refine iff_of_true (cellLossless_of_refused library dateText _ _ fun cell made => ?_)
            fun _ same => by rw [integral] at same; cases same
          simp [richToCanonical, isRichNull, scalarToCanonical, dateMillisToCanonical, integerOf,
            integral, codecError] at made
      | some integer =>
          rw [lossless_signed_iff library dateText _ stored _ integer (by
            simp [richToCanonical, isRichNull, scalarToCanonical, dateMillisToCanonical, integerOf,
              integral])]
          simp [FitsInt64, integral]
  | bigint held => exact lossless_signed_iff library dateText _ stored _ held rfl
  | _ =>
      refine iff_of_true (cellLossless_of_refused library dateText _ _ fun cell made => ?_) trivial
      cases made

theorem wrapInt_intRange (bitWidth : Nat) (signed : Bool) (value : Int)
    (width : bitWidth = 8 ∨ bitWidth = 16 ∨ bitWidth = 32 ∨ bitWidth = 64)
    (inside : (intRange bitWidth signed).1 ≤ value ∧ value ≤ (intRange bitWidth signed).2) :
    wrapInt bitWidth signed value = value := by
  have ranges : intRange bitWidth signed =
      if signed then (-2 ^ (bitWidth - 1), 2 ^ (bitWidth - 1) - 1) else (0, 2 ^ bitWidth - 1) := by
    rcases width with rfl | rfl | rfl | rfl <;> rfl
  rw [ranges] at inside
  refine wrapInt_of_range bitWidth (by omega) signed value ?_ ?_
  · cases signed <;> exact inside.1
  · cases signed <;> exact inside.2

/-- What the integer codecs make of a value. -/
private theorem int_converts (bitWidth : Nat) (signed : Bool) (value : Rich)
    (notNull : isRichNull value = false) :
    richToCanonical dateText (.int bitWidth signed) value =
      checkInteger "int" (intRange bitWidth signed).1 (intRange bitWidth signed).2 value := by
  simp [richToCanonical, notNull, scalarToCanonical]

private theorem int64Column_iff (signed : Bool) (value : Rich)
    (notNull : isRichNull value = false) :
    CellLossless library dateText (.int 64 signed) value ↔ FitsIntColumn 64 signed value := by
  have converts := int_converts dateText 64 signed value notNull
  have stored := inBigInt_int library signed
  cases value with
  | null => cases notNull
  | number held =>
      cases integral : held.toInt? with
      | none =>
          refine iff_of_true (cellLossless_of_refused library dateText _ _ fun cell made => ?_) ?_
          · simp [converts, checkInteger, integerOf, integral, codecError] at made
          · simp [FitsIntColumn, integral]
      | some integer =>
          by_cases inside : (intRange 64 signed).1 ≤ integer ∧ integer ≤ (intRange 64 signed).2
          · refine iff_of_false (fun lossless => ?_) (fun fits => fits integer integral inside)
            -- The column gives a bigint for the number.
            rw [lossless_bigInt_iff library dateText _ signed stored _ (.number held) integer
              (by simp [converts, checkInteger, integerOf, integral, inside]) nofun
              (by simp [bigIntOf, integral])] at lossless
            cases lossless
          · refine iff_of_true (cellLossless_of_refused library dateText _ _ fun cell made => ?_) ?_
            · simp [converts, checkInteger, integerOf, integral, inside, codecError] at made
            · intro other same
              rw [integral] at same
              cases same
              exact inside
  | bigint held =>
      refine iff_of_true ?_ trivial
      by_cases inside : (intRange 64 signed).1 ≤ held ∧ held ≤ (intRange 64 signed).2
      · rw [lossless_bigInt_iff library dateText _ signed stored _ (.bigint held) held
          (by simp [converts, checkInteger, inside]) nofun rfl,
          wrapInt_intRange 64 signed held (by decide) inside]
      · refine cellLossless_of_refused library dateText _ _ fun cell made => ?_
        simp [converts, checkInteger, inside, codecError] at made
  | _ =>
      refine iff_of_true (cellLossless_of_refused library dateText _ _ fun cell made => ?_) trivial
      rw [converts] at made
      cases made

theorem inVector_int (bitWidth : Nat) (signed : Bool) (narrow : bitWidth ≠ 64) :
    InVector library (.int bitWidth signed) where
  notNull := nofun
  writes := fun cells => by simp [writeCanonicalColumn, narrow]

private theorem narrowInt_iff (bitWidth : Nat) (signed : Bool)
    (width : bitWidth = 8 ∨ bitWidth = 16 ∨ bitWidth = 32) (value : Rich)
    (notNull : isRichNull value = false) :
    CellLossless library dateText (.int bitWidth signed) value ↔
      FitsIntColumn bitWidth signed value := by
  have narrow : bitWidth ≠ 64 := by omega
  have small : bitWidth ≤ 32 := by omega
  have converts := int_converts dateText bitWidth signed value notNull
  have stored := inVector_int library bitWidth signed narrow
  cases value with
  | null => cases notNull
  | number held =>
      rw [FitsIntColumn, if_neg narrow]
      cases integral : held.toInt? with
      | none =>
          refine iff_of_true (cellLossless_of_refused library dateText _ _ fun cell made => ?_)
            (integral_of_negativeZero held integral)
          simp [converts, checkInteger, integerOf, integral, codecError] at made
      | some integer =>
          by_cases inside : (intRange bitWidth signed).1 ≤ integer ∧
              integer ≤ (intRange bitWidth signed).2
          · rw [lossless_vector_iff library dateText _ stored _ (.number held)
              (.number (Number.ofInt integer))
              (by simp [converts, checkInteger, integerOf, integral, inside]) nofun trivial]
            · exact Iff.trans ⟨Value.number.inj, congrArg Value.number⟩
                (ofInt_eq_iff held integer integral)
            · intro cells vector index made here valid
              have kept := library.intValues bitWidth signed cells vector index held integer small
                made here integral
              rw [wrapInt_intRange bitWidth signed integer (by omega) inside] at kept
              simp [readFromData, isValid, valid, narrow, numberAt, kept]
          · refine iff_of_true (cellLossless_of_refused library dateText _ _ fun cell made => ?_) ?_
            · simp [converts, checkInteger, integerOf, integral, inside, codecError] at made
            · rintro rfl
              have zero : integer = 0 := by
                have same : some 0 = some integer := integral
                exact (Option.some.inj same).symm
              subst zero
              refine inside ?_
              rcases width with rfl | rfl | rfl <;> cases signed <;> decide
  | bigint held =>
      refine iff_of_true ?_ trivial
      by_cases inside : (intRange bitWidth signed).1 ≤ held ∧ held ≤ (intRange bitWidth signed).2
      · exact lossless_of_bigint library dateText _ stored trivial _ held
          (by simp [converts, checkInteger, inside])
      · refine cellLossless_of_refused library dateText _ _ fun cell made => ?_
        simp [converts, checkInteger, inside, codecError] at made
  | _ =>
      refine iff_of_true (cellLossless_of_refused library dateText _ _ fun cell made => ?_) trivial
      rw [converts] at made
      cases made

private theorem float_iff (precision : Precision) (value : Rich)
    (notNull : isRichNull value = false) :
    CellLossless library dateText (.float precision) value ↔
      FitsFloat library precision value := by
  have stored : InVector library (.float precision) := ⟨nofun, fun _ => rfl⟩
  cases value with
  | null => cases notNull
  | number held =>
      by_cases half : precision = .half
      · subst half
        rw [lossless_vector_iff library dateText _ stored _ (.number held)
          (.number (Number.ofNat (library.halfBits held))) rfl nofun trivial]
        · refine Iff.trans ⟨Value.number.inj, congrArg Value.number⟩ ?_
          have bits := ofNat_halfBits_iff (library.halfBits held) (library.halfBitsLt held)
          rw [library.halfOfBits] at bits
          exact bits.trans (by simp [FitsFloat])
        · intro cells vector index made here valid
          have kept := library.halfValues cells vector index held made here
          simp [readFromData, isValid, valid, numberAt, kept]
      · rw [lossless_vector_iff library dateText _ stored _ (.number held)
          (.number (library.round precision held)) rfl nofun trivial]
        · exact iff_of_true rfl fun isHalf => absurd isHalf half
        · intro cells vector index made here valid
          have kept := library.floatValues precision cells vector index held half made here
          simp [readFromData, isValid, valid, numberAt, kept]
  | bigint held =>
      exact iff_of_true (lossless_of_bigint library dateText _ stored trivial _ held rfl) trivial
  | _ => exact iff_of_true (cellLossless_of_refused library dateText _ _ fun _ => nofun) trivial

private theorem text_iff (type : DataType) (isText : type = .utf8 ∨ type = .largeUtf8)
    (value : Rich) (notNull : isRichNull value = false) :
    CellLossless library dateText type value ↔ FitsText (value.toText dateText) := by
  have stored : InVector library type := by
    rcases isText with rfl | rfl <;> exact ⟨nofun, fun _ => rfl⟩
  have converts : richToCanonical dateText type value = .ok (.string (value.toText dateText)) := by
    rcases isText with rfl | rfl <;> simp [richToCanonical, notNull, scalarToCanonical]
  have buildable : Buildable library.intervals type (.string (value.toText dateText)) := by
    rcases isText with rfl | rfl <;> exact trivial
  have exact' : rounded library type (.string (value.toText dateText)) =
      .string (value.toText dateText) := by
    rcases isText with rfl | rfl <;> rfl
  rw [lossless_vector_iff library dateText type stored value _
    (.string (dropBom (toWellFormed (value.toText dateText)))) converts nofun buildable, exact']
  · exact ⟨Value.string.inj, congrArg Value.string⟩
  · intro cells vector index made here valid
    have kept := library.getText type cells vector index _ isText made here
    rcases isText with rfl | rfl <;> simp [readFromData, isValid, valid, getAt, kept, Value.toText]

private theorem bytes_lossless (type : DataType) (fixedWidth : Option Nat)
    (isBinary : (type = .binary ∨ type = .largeBinary) ∧ fixedWidth = none ∨
      ∃ byteWidth, type = .fixedSizeBinary byteWidth ∧ fixedWidth = some byteWidth)
    (value : Rich) (notNull : isRichNull value = false) :
    CellLossless library dateText type value := by
  have stored : InVector library type := by
    rcases isBinary with ⟨rfl | rfl, _⟩ | ⟨_, rfl, _⟩ <;> exact ⟨nofun, fun _ => rfl⟩
  have converts : richToCanonical dateText type value = bytesToCanonical fixedWidth value := by
    rcases isBinary with ⟨rfl | rfl, rfl⟩ | ⟨_, rfl, rfl⟩ <;>
      simp [richToCanonical, notNull, scalarToCanonical]
  cases value with
  | null => cases notNull
  | bytes held =>
      by_cases width : fixedWidth.any (· ≠ held.length) = true
      · refine cellLossless_of_refused library dateText _ _ fun cell made => ?_
        rw [converts, bytesToCanonical, if_pos width] at made
        cases made
      · have kind : type = .binary ∨ type = .largeBinary ∨ type = .fixedSizeBinary held.length := by
          rcases isBinary with ⟨isType | isType, _⟩ | ⟨byteWidth, isType, rfl⟩
          · exact .inl isType
          · exact .inr (.inl isType)
          · have same : byteWidth = held.length := by simpa using width
            exact .inr (.inr (same ▸ isType))
        have buildable : Buildable library.intervals type (.bytes held) := by
          rcases kind with rfl | rfl | rfl
          · exact trivial
          · exact trivial
          · rfl
        rw [lossless_vector_iff library dateText type stored _ (.bytes held) (.bytes held)
          (by rw [converts, bytesToCanonical, if_neg width]) nofun buildable]
        · rcases kind with rfl | rfl | rfl <;> rfl
        · intro cells vector index made here valid
          have kept := library.getBytes type cells vector index held kind made here
          rcases kind with rfl | rfl | rfl <;> simp [readFromData, isValid, valid, getAt, kept]
  | _ =>
      refine cellLossless_of_refused library dateText _ _ fun cell made => ?_
      rw [converts] at made
      cases made

private theorem bool_lossless (value : Rich) (notNull : isRichNull value = false) :
    CellLossless library dateText .bool value := by
  have stored : InVector library .bool := ⟨nofun, fun _ => rfl⟩
  cases value with
  | null => cases notNull
  | bool held =>
      rw [lossless_vector_iff library dateText .bool stored _ (.bool held) (.bool held) rfl nofun
        trivial]
      · rfl
      · intro cells vector index made here valid
        have kept := library.getBool cells vector index held made here
        simp [readFromData, isValid, valid, getAt, kept]
  | _ => exact cellLossless_of_refused library dateText _ _ fun _ => nofun

private theorem interval_iff (unit : IntervalUnit) (value : Rich)
    (notNull : isRichNull value = false) :
    CellLossless library dateText (.interval unit) value ↔
      (library.intervals unit value.toValue →
        library.intervalCell unit value.toValue = value.toValue) := by
  have stored : InVector library (.interval unit) := ⟨nofun, fun _ => rfl⟩
  have converts : richToCanonical dateText (.interval unit) value = .ok value.toValue := by
    simp [richToCanonical, notNull, scalarToCanonical]
  have cellNotNull : value.toValue ≠ .null := by
    cases value with
    | null => cases notNull
    | _ => simp [Rich.toValue]
  by_cases taken : library.intervals unit value.toValue
  · rw [lossless_vector_iff library dateText _ stored value _
      (library.intervalCell unit value.toValue) converts cellNotNull taken]
    · exact ⟨fun same _ => same, fun same => same taken⟩
    · intro cells vector index made here valid
      have kept := library.getInterval unit cells vector index _ made here taken
      simp [readFromData, isValid, valid, getAt, kept]
  · refine iff_of_true ?_ fun held => absurd held taken
    refine cellLossless_of_unwritable library dateText _ value _ converts ?_
    intro cells column written member
    obtain ⟨vector, _, made⟩ := vector_ok library _ cells column written
    exact taken (library.refusesInterval unit cells vector made _ member cellNotNull)

private theorem decimal_iff (bitWidth precision : Nat) (scale : Int)
    (scalar : (DataType.decimal bitWidth precision scale).IsScalar) (value : Rich)
    (notNull : isRichNull value = false) :
    CellLossless library dateText (.decimal bitWidth precision scale) value ↔
      FitsDecimal bitWidth value := by
  cases value with
  | null => cases notNull
  | number held =>
      cases integral : held.toInt? with
      | none =>
          refine iff_of_true (cellLossless_of_refused library dateText _ _ fun cell made => ?_)
            fun _ same => by rw [integral] at same; cases same
          simp [richToCanonical, isRichNull, scalarToCanonical, decimalToCanonical, toBigIntStrict,
            integerOf, integral, codecError] at made
      | some integer =>
          rw [lossless_decimal_iff library dateText bitWidth precision scale scalar _ integer (by
            simp [richToCanonical, isRichNull, scalarToCanonical, decimalToCanonical, toBigIntStrict,
              integerOf, integral])]
          simp [FitsDecimal, integral]
  | bigint held =>
      exact lossless_decimal_iff library dateText bitWidth precision scale scalar _ held rfl
  | bytes held =>
      exact lossless_decimal_iff library dateText bitWidth precision scale scalar _ _ rfl
  | _ =>
      refine iff_of_true (cellLossless_of_refused library dateText _ _ fun cell made => ?_) trivial
      cases made

/-- A value of a type is refused or comes back exactly when it fits the type's column. -/
theorem codec_lossless_iff (type : DataType) (scalar : type.IsScalar) (value : Rich)
    (authored : value.IsAuthored) :
    CellLossless library dateText type value ↔ Fits library dateText type value := by
  cases null : isRichNull value with
  | true =>
      obtain rfl : value = .null := by cases value <;> first | rfl | cases null
      refine iff_of_true (lossless_null library dateText type _ ?_) trivial
      cases type <;> first | rfl | exact absurd scalar id
  | false =>
      unfold Fits
      rw [if_neg (by rw [null]; decide)]
      cases type with
      | null =>
          refine iff_of_true (lossless_null library dateText _ value ?_) trivial
          simp [richToCanonical, null, scalarToCanonical]
      | bool => exact iff_of_true (bool_lossless library dateText value null) trivial
      | int bitWidth signed =>
          by_cases wide : bitWidth = 64
          · subst wide
            exact int64Column_iff library dateText signed value null
          · refine narrowInt_iff library dateText bitWidth signed ?_ value null
            have widths : bitWidth = 8 ∨ bitWidth = 16 ∨ bitWidth = 32 ∨ bitWidth = 64 := scalar
            omega
      | float precision => exact float_iff library dateText precision value null
      | utf8 => exact text_iff library dateText _ (.inl rfl) value null
      | largeUtf8 => exact text_iff library dateText _ (.inr rfl) value null
      | binary =>
          exact iff_of_true (bytes_lossless library dateText _ none (.inl ⟨.inl rfl, rfl⟩) value null)
            trivial
      | largeBinary =>
          exact iff_of_true (bytes_lossless library dateText _ none (.inl ⟨.inr rfl, rfl⟩) value null)
            trivial
      | fixedSizeBinary byteWidth =>
          exact iff_of_true (bytes_lossless library dateText _ (some byteWidth)
            (.inr ⟨byteWidth, rfl, rfl⟩) value null) trivial
      | decimal bitWidth precision scale =>
          exact decimal_iff library dateText bitWidth precision scale scalar value null
      | date unit =>
          cases unit with
          | day => exact date32_iff library dateText value authored null
          | millisecond => exact date64_iff library dateText value authored null
      | time unit bitWidth =>
          by_cases wide : bitWidth = 64
          · subst wide
            exact int64_iff library dateText _ (inBigInt_time library unit) "time64" value (by
              simp [richToCanonical, null, scalarToCanonical])
          · simp only [if_neg wide]
            exact time32_iff library dateText unit bitWidth wide value null
      | timestamp unit timezone =>
          exact int64_iff library dateText _ (inBigInt_timestamp library unit timezone) "timestamp"
            value (by simp [richToCanonical, null, scalarToCanonical])
      | duration unit =>
          exact int64_iff library dateText _ (inBigInt_duration library unit) "duration" value (by
            simp [richToCanonical, null, scalarToCanonical])
      | interval unit => exact interval_iff library dateText unit value null
      | _ => exact absurd scalar id

end

/-! ## Samples -/

private def takes : DataType → Value → Bool
  | _, .null | .null, _ => true
  | .bool, .bool _ | .int _ _, .number _ | .float _, .number _ => true
  | .utf8, .string _ | .largeUtf8, .string _ => true
  | .binary, .bytes _ | .largeBinary, .bytes _ => true
  | .fixedSizeBinary byteWidth, .bytes value => decide (value.length = byteWidth)
  | _, _ => false

private def cellOf : Option Value → Value
  | some (.string value) => .string (dropBom (toWellFormed value))
  | some value => value
  | none => .null

/-- The encodings of zero and one. -/
private def bitsOf (number : Number) : Nat :=
  if number = .zero then 0 else 0x3c00

private def roundTo : Precision → Number → Number
  | .half, number => halfOfBits (bitsOf number)
  | _, number => number

private def elementOf : DataType → Option Value → Number
  | .int bitWidth signed, some (.number number) =>
      (number.toInt?.map fun value => Number.ofInt (wrapInt bitWidth signed value)).getD .nan
  | .float .half, some (.number number) => Number.ofNat (bitsOf number)
  | .float precision, some (.number number) => roundTo precision number
  | _, _ => .nan

private theorem takes_of_buildable (type : DataType) (cell : Value)
    (buildable : cell = .null ∨ Buildable (fun _ _ => False) type cell) : takes type cell = true := by
  rcases buildable with rfl | buildable
  · cases type <;> rfl
  · cases type <;> cases cell <;>
      first | rfl | exact absurd buildable id | exact decide_eq_true buildable

private def vectorOf (type : DataType) (cells : List Value) :
    Except Text (DataType × List Value) :=
  if cells.all (takes type) then .ok (type, cells) else .error (text "unexpected value")

private theorem vectorOf_ok (type : DataType) (cells : List Value) (vector : DataType × List Value)
    (made : vectorOf type cells = .ok vector) :
    vector = (type, cells) ∧ ∀ cell ∈ cells, takes type cell = true := by
  unfold vectorOf at made
  split at made
  · rename_i all
    cases made
    exact ⟨rfl, List.all_eq_true.mp all⟩
  · cases made

private theorem isCanonicalNull_cellOf (cell : Value) :
    isCanonicalNull (cellOf (some cell)) = isCanonicalNull cell := by
  cases cell <;> rfl

/-- Vectors that keep their values; of the half floats it knows zero and one, and it takes no
interval. -/
def sampleLibrary : VectorLibrary where
  Vector := DataType × List Value
  vectorFromArray := vectorOf
  isValid := fun vector index => !isCanonicalNull (cellOf vector.2[index]?)
  get := fun vector index => cellOf vector.2[index]?
  values := fun vector index => elementOf vector.1 vector.2[index]?
  round := roundTo
  halfBits := bitsOf
  intervals := fun _ _ => False
  intervalCell := fun _ value => value
  builds := fun type cells each => by
    refine ⟨(type, cells), if_pos (List.all_eq_true.mpr fun cell member => ?_)⟩
    exact takes_of_buildable type cell (each cell member)
  refusesBigint := fun type cells vector numbers made value member => by
    have taken := (vectorOf_ok type cells vector made).2 _ member
    cases type <;> first | exact numbers | cases taken
  refusesInterval := fun unit cells vector made cell member notNull => by
    have taken := (vectorOf_ok _ cells vector made).2 cell member
    cases cell <;> first | exact absurd rfl notNull | cases taken
  validOf := fun type cells vector index cell made here _ => by
    obtain ⟨rfl, _⟩ := vectorOf_ok type cells vector made
    rw [here, isCanonicalNull_cellOf]
  getBool := fun cells vector index value made here => by
    obtain ⟨rfl, _⟩ := vectorOf_ok _ cells vector made
    rw [here]
    rfl
  getText := fun type cells vector index value _ made here => by
    obtain ⟨rfl, _⟩ := vectorOf_ok type cells vector made
    rw [here]
    rfl
  getBytes := fun type cells vector index value _ made here => by
    obtain ⟨rfl, _⟩ := vectorOf_ok type cells vector made
    rw [here]
    rfl
  getInterval := fun unit cells vector index cell made here taken => absurd taken id
  intValues := fun bitWidth signed cells vector index number value _ made here integral => by
    obtain ⟨rfl, _⟩ := vectorOf_ok _ cells vector made
    simp [here, elementOf, integral]
  floatValues := fun precision cells vector index number notHalf made here => by
    obtain ⟨rfl, _⟩ := vectorOf_ok _ cells vector made
    rw [here]
    cases precision <;> first | rfl | exact absurd rfl notHalf
  halfValues := fun cells vector index number made here => by
    obtain ⟨rfl, _⟩ := vectorOf_ok _ cells vector made
    rw [here]
    rfl
  roundDouble := fun _ => rfl
  halfBitsLt := fun number => by
    unfold bitsOf
    split <;> decide
  halfOfBits := fun _ => rfl

theorem sampleLibrary_get (type : DataType) (cells : List Value) (vector : sampleLibrary.Vector)
    (index : Nat) (cell : Value) (made : sampleLibrary.vectorFromArray type cells = .ok vector)
    (here : cells[index]? = some cell) (notNull : isCanonicalNull cell = false) :
    isCanonicalNull (sampleLibrary.get vector index) = false := by
  obtain ⟨rfl, _⟩ := vectorOf_ok type cells vector made
  have same : sampleLibrary.get (type, cells) index = cellOf cells[index]? := rfl
  rw [same, here, isCanonicalNull_cellOf, notNull]

theorem codec_lossless_sample :
    CellLossless sampleLibrary (fun _ => []) (.timestamp .microsecond none)
      (.bigint 1700000000000000) :=
  (codec_lossless_iff sampleLibrary _ (.timestamp .microsecond none) trivial
    (.bigint 1700000000000000) trivial).mpr
    (show InSigned 64 1700000000000000 by decide)

/-- The timestamp `2^63` wraps to `-2^63`, and the half float 1 is read as its bits. -/
theorem columns_wrap :
    (∃ column, writeCanonicalColumn sampleLibrary (.timestamp .nanosecond none) [.bigint (2 ^ 63)] =
        .ok column ∧
      readFromData sampleLibrary (.timestamp .nanosecond none) column 0 = .bigint (-2 ^ 63)) ∧
    ¬CellLossless sampleLibrary (fun _ => []) (.timestamp .nanosecond none) (.bigint (2 ^ 63)) ∧
    ¬CellLossless sampleLibrary (fun _ => []) (.float .half) (.number (Number.ofNat 1)) := by
  refine ⟨⟨.bigInt [true] [-2 ^ 63], rfl, rfl⟩, fun lossless => ?_, fun lossless => ?_⟩
  · have inside := (lossless_signed_iff sampleLibrary _ _
      (inBigInt_timestamp sampleLibrary .nanosecond none) _ (2 ^ 63) rfl).mp lossless
    revert inside
    decide
  · have zero := (float_iff sampleLibrary _ .half _ rfl).mp lossless rfl
    revert zero
    decide +kernel

end VgiWorker.Arrow
