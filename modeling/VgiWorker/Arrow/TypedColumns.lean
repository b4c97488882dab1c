import VgiWorker.Arrow.NestedRoundTrip

/-!
# What typed columns give back

Values of the kinds of a type go through its codec and into a column, and the
column gives them back. Strings come back as UTF-8 holds them.
-/

set_option autoImplicit false

namespace VgiWorker.Arrow

open VgiWorker.Js Nested

/-! ## Values of a type -/

mutual

/-- A value of the kind of its type, or null. A member of an object is null only in a field of
the null type, and none is named `__proto__`. -/
inductive Typed : DataType → Rich → Prop where
  | null (type : DataType) : Typed type .null
  | bool (value : Bool) : Typed .bool (.bool value)
  | number (value : Number) : Typed (.float .double) (.number value)
  | bigint (value : Int) : Typed (.int 64 true) (.bigint value)
  | string (value : Text) : Typed .utf8 (.string value)
  | bytes (value : Bytes) : Typed .binary (.bytes value)
  | array (item : Field) (elements : List Rich)
      (each : ∀ element ∈ elements, Typed item.type element) :
      Typed (.list [item]) (.array elements)
  | object (fields : List Field) (entries : List (Text × Rich))
      (members : TypedMembers fields entries) (distinct : (entries.map Prod.fst).Nodup)
      (plain : text "__proto__" ∉ entries.map Prod.fst) :
      Typed (.struct fields) (.object entries)

inductive TypedMembers : List Field → List (Text × Rich) → Prop where
  | nil : TypedMembers [] []
  | cons (field : Field) (value : Rich) (fields : List Field) (entries : List (Text × Rich))
      (typed : Typed field.type value) (nullOnly : value = .null → field.type = .null)
      (rest : TypedMembers fields entries) :
      TypedMembers (field :: fields) ((field.name, value) :: entries)

end

mutual

/-- A value with its strings as UTF-8 holds them. -/
def Rich.kept : Rich → Rich
  | .string value => .string (dropBom (toWellFormed value))
  | .array elements => .array (Rich.keptElements elements)
  | .object entries => .object (Rich.keptEntries entries)
  | value => value

def Rich.keptElements : List Rich → List Rich
  | [] => []
  | element :: rest => Rich.kept element :: Rich.keptElements rest

def Rich.keptEntries : List (Text × Rich) → List (Text × Rich)
  | [] => []
  | (name, value) :: rest => (name, Rich.kept value) :: Rich.keptEntries rest

end

section

variable {library : VectorLibrary} (nested : NestedVectors library) (dateText : Number → Text)

/-- A cell that the codec of the type makes of a value of the type. -/
structure Given (type : DataType) (value : Rich) (cell : Value) : Prop where
  typed : Typed type value
  converts : richToCanonical dateText type value = .ok cell

/-! ## Columns without children -/

private theorem canonical_of_null : ∀ (type : DataType) (cell : Value),
    richToCanonical dateText type .null = .ok cell → cell = .null
  | .dictionary _ dictionary _ _, cell, converts =>
      canonical_of_null dictionary cell (by simpa [richToCanonical] using converts)
  | .list [], _, converts => by simp [richToCanonical, listToCanonical, codecError] at converts
  | .fixedSizeList _ [], _, converts => by
      simp [richToCanonical, listToCanonical, codecError] at converts
  | .list (_ :: _), _, converts => by
      simpa [richToCanonical, listToCanonical, isRichNull] using converts.symm
  | .fixedSizeList _ (_ :: _), _, converts => by
      simpa [richToCanonical, listToCanonical, isRichNull] using converts.symm
  | .map _ children, _, converts => by
      rw [richToCanonical] at converts
      unfold mapToCanonical at converts
      split at converts
      · simpa [isRichNull] using converts.symm
      · simp [codecError] at converts
  | .struct _, _, converts | .null, _, converts | .int _ _, _, converts | .float _, _, converts
  | .binary, _, converts | .utf8, _, converts | .bool, _, converts | .decimal _ _ _, _, converts
  | .date _, _, converts | .time _ _, _, converts | .timestamp _ _, _, converts
  | .interval _, _, converts | .union _ _ _, _, converts | .fixedSizeBinary _, _, converts
  | .duration _, _, converts | .largeBinary, _, converts | .largeUtf8, _, converts => by
      simpa [richToCanonical, isRichNull] using converts.symm

variable (library) in
/-- A column without children gives a value of its type back. -/
private theorem reads_given (type : DataType) (value : Rich) (cell : Value)
    (given : Given dateText type value cell) (isLeaf : type.isLeaf = true) :
    Reads library type cell value.kept.toValue := by
  obtain ⟨typed, converts⟩ := given
  cases typed with
  | null =>
      obtain rfl := canonical_of_null dateText type cell converts
      exact reads_null library type
  | bool value =>
      cases converts
      refine reads_vector library .bool ⟨(by simp), fun _ => rfl⟩ _ _ (by simp) ?_
      intro cells vector index made here valid
      have kept := library.getBool cells vector index value made here
      simp [readFromData, isValid, valid, getAt, kept, Rich.kept, Rich.toValue]
  | number value =>
      cases converts
      refine reads_vector library (.float .double) ⟨(by simp), fun _ => rfl⟩ _ _ (by simp) ?_
      intro cells vector index made here valid
      have kept := library.floatValues .double cells vector index value (by simp) made here
      simp [readFromData, isValid, valid, numberAt, kept, Rich.kept, Rich.toValue,
        library.roundDouble]
  | bigint value =>
      have range : intRange 64 true = (-2 ^ 63, 2 ^ 63 - 1) := rfl
      simp only [richToCanonical, isRichNull, Bool.false_eq_true, if_false, scalarToCanonical,
        checkInteger, range] at converts
      split at converts
      · rename_i inside
        cases converts
        have reads := reads_bigInt library (.int 64 true) true (inBigInt_int library true)
          (.bigint value) value (by simp) rfl
        rwa [wrapInt_of_range 64 (by decide) true value inside.1 inside.2] at reads
      · cases converts
  | string value =>
      cases converts
      refine reads_vector library .utf8 ⟨(by simp), fun _ => rfl⟩ _ _ (by simp) ?_
      intro cells vector index made here valid
      have kept := library.getText .utf8 cells vector index value (.inl rfl) made here
      simp [readFromData, isValid, valid, getAt, kept, Rich.kept, Rich.toValue,
        Value.toText]
  | bytes value =>
      cases converts
      refine reads_vector library .binary ⟨(by simp), fun _ => rfl⟩ _ _ (by simp) ?_
      intro cells vector index made here valid
      have kept := library.getBytes .binary cells vector index value (.inl rfl) made here
      simp [readFromData, isValid, valid, getAt, kept, Rich.kept, Rich.toValue]
  | array item elements each => cases isLeaf
  | object fields entries members distinct => cases isLeaf

/-- Every column of the type gives its values back. -/
def GivesBack (type : DataType) : Prop :=
  ∀ cells data, (∀ cell ∈ cells, cell = .null ∨ ∃ value, Given dateText type value cell) →
    buildColumnData nested type cells = .ok data →
    ∀ (index : Nat) value cell, cells[index]? = some cell → Given dateText type value cell →
      Nested.readCanonicalValue library type data index = value.kept.toValue

private theorem givesBack_null (type : DataType) (cells : List Value) (data : NestedData library)
    (built : buildColumnData nested type cells = .ok data) (index : Nat) (cell : Value)
    (here : cells[index]? = some cell) (given : Given dateText type .null cell) :
    Nested.readCanonicalValue library type data index = Rich.null.kept.toValue := by
  obtain rfl := canonical_of_null dateText type cell given.converts
  exact read_null nested type cells data built index here

/-! ## Columns of lists -/

private theorem given_array (item : Field) (value : Rich) (cell : Value)
    (given : Given dateText (.list [item]) value cell) :
    value = .null ∧ cell = .null ∨ ∃ elements items, value = .array elements ∧
      cell = .array items ∧ List.Forall₂ (Given dateText item.type) elements items := by
  obtain ⟨typed, converts⟩ := given
  cases typed with
  | null => exact .inl ⟨rfl, canonical_of_null dateText _ cell converts⟩
  | array _ elements each =>
      simp only [richToCanonical, listToCanonical, isRichNull, Bool.false_eq_true, if_false,
        richElements, except_ok_bind] at converts
      obtain ⟨items, made, converts⟩ := except_bind_ok _ _ _ converts
      cases converts
      refine .inr ⟨elements, items, rfl, rfl, ?_⟩
      refine List.forall₂_iff_get.mpr ?_
      obtain ⟨lengths, related⟩ := List.forall₂_iff_get.mp ((except_mapM_iff _ _ _).mp made)
      exact ⟨lengths, fun index inLeft inRight =>
        ⟨each _ (List.get_mem _ _), related index inLeft inRight⟩⟩

private theorem toElements_keptElements (elements : List Rich) :
    Rich.toElements (Rich.keptElements elements) =
      elements.map fun element => element.kept.toValue := by
  induction elements with
  | nil => rfl
  | cons element rest ih => simp [Rich.keptElements, Rich.toElements, ih]

private theorem givesBack_list (item : Field) (child : GivesBack nested dateText item.type) :
    GivesBack nested dateText (.list [item]) := by
  intro cells data given built index value cell here givenHere
  have givenItems : ∀ member ∈ cells.flatMap itemsOf, member = .null ∨ ∃ value,
      Given dateText item.type value member := by
    intro member isItem
    obtain ⟨other, isCell, isItem⟩ := List.mem_flatMap.mp isItem
    rcases given other isCell with rfl | ⟨value, givenCell⟩
    · cases isItem
    · rcases given_array dateText item value other givenCell with
        ⟨_, rfl⟩ | ⟨_, items, _, rfl, each⟩
      · cases isItem
      · obtain ⟨offset, isHere⟩ := List.mem_iff_getElem?.mp isItem
        obtain ⟨element, _, relates⟩ := forall₂_getElem? each.flip offset member isHere
        exact .inr ⟨element, relates⟩
  rcases given_array dateText item value cell givenHere with
    ⟨rfl, rfl⟩ | ⟨elements, items, rfl, rfl, each⟩
  · exact givesBack_null nested dateText _ cells data built index .null here givenHere
  · rw [buildColumnData] at built
    obtain ⟨column, made, built⟩ := except_bind_ok _ _ _ built
    cases built
    rw [buildItems] at made
    obtain ⟨before, between, placed⟩ :=
      Data.readRow_between itemsOf (Nested.readCanonicalValue library item.type column) 0 cells
        index _ here
    have lengths : (itemsOf (.array items)).length =
        (elements.map fun element => element.kept.toValue).length := by
      rw [List.length_map, each.length_eq]
      rfl
    rw [lengths] at between
    have read := (Data.readBetween_iff (Nested.readCanonicalValue library item.type column)
      (0 + before) (elements.map fun element => element.kept.toValue)).mpr fun offset kept isKept => by
        rw [List.getElem?_map, Option.map_eq_some_iff] at isKept
        obtain ⟨element, isElement, rfl⟩ := isKept
        obtain ⟨member, isMember, relates⟩ := forall₂_getElem? each offset element isElement
        have found := placed offset member isMember
        rw [if_neg (by simpa using List.ne_nil_of_mem (List.mem_of_getElem? found))] at made
        rw [Nat.zero_add]
        exact child _ column givenItems made _ element member found relates
    rw [Nested.readCanonicalValue, if_pos (validity_value cells index _ here (by simp)), Rich.kept,
      Rich.toValue, toElements_keptElements]
    exact congrArg Value.array (between.trans read)

/-! ## Columns of structs -/

private theorem typedMembers_forall₂ (fields : List Field) (entries : List (Text × Rich))
    (members : TypedMembers fields entries) :
    List.Forall₂ (fun field entry => entry.1 = field.name ∧
      (entry.2 = .null → field.type = .null) ∧ Typed field.type entry.2) fields entries := by
  induction fields generalizing entries with
  | nil =>
      cases members
      exact .nil
  | cons field fields ih =>
      cases members with
      | cons _ value _ entries typed nullOnly rest =>
          exact .cons ⟨rfl, nullOnly, typed⟩ (ih entries rest)

theorem structToCanonical_forall₂ (fields : List Field) (value : Rich)
    (members : List (Text × Value))
    (converts : structToCanonical dateText fields value = .ok members) :
    List.Forall₂ (fun field member => member.1 = field.name ∧
      ∃ rich, richMember value field.name = .ok rich ∧
        richToCanonical dateText field.type rich = .ok member.2) fields members := by
  induction fields generalizing members with
  | nil =>
      cases converts
      exact .nil
  | cons field fields ih =>
      rw [structToCanonical] at converts
      obtain ⟨rich, isMember, converts⟩ := except_bind_ok _ _ _ converts
      obtain ⟨first, here, converts⟩ := except_bind_ok _ _ _ converts
      obtain ⟨others, later, converts⟩ := except_bind_ok _ _ _ converts
      cases converts
      exact .cons ⟨rfl, rich, isMember, here⟩ (ih others later)

/-- A row of a struct column with the members that its cells were made of. -/
def RowGiven (fields : List Field) (entries : List (Text × Rich)) (cell : Value) : Prop :=
  List.Forall₂ (fun field entry => entry.1 = field.name ∧
    (entry.2 = .null → field.type = .null) ∧
    Given dateText field.type entry.2 (rowMember cell field.name)) fields entries

theorem names_eq {Entry : Type} {Related : Field → Text × Entry → Prop}
    (fields : List Field) (entries : List (Text × Entry))
    (related : List.Forall₂ Related fields entries)
    (named : ∀ field entry, Related field entry → entry.1 = field.name) :
    entries.map Prod.fst = fields.map FieldOf.name := by
  induction related with
  | nil => rfl
  | cons here _ ih => rw [List.map_cons, List.map_cons, ih, named _ _ here]

private theorem given_object (fields : List Field) (value : Rich) (cell : Value)
    (given : Given dateText (.struct fields) value cell) :
    value = .null ∧ cell = .null ∨ ∃ entries members, value = .object entries ∧
      cell = .object members ∧ (entries.map Prod.fst).Nodup ∧
      text "__proto__" ∉ entries.map Prod.fst ∧ RowGiven dateText fields entries cell := by
  obtain ⟨typed, converts⟩ := given
  cases typed with
  | null => exact .inl ⟨rfl, canonical_of_null dateText _ cell converts⟩
  | object _ entries typed distinct plain =>
      simp only [richToCanonical, isRichNull, Bool.false_eq_true, if_false] at converts
      obtain ⟨members, made, converts⟩ := except_bind_ok _ _ _ converts
      cases converts
      have typedMembers := typedMembers_forall₂ fields entries typed
      have converted := structToCanonical_forall₂ dateText fields _ members made
      have entryNames := names_eq fields entries typedMembers fun _ _ related => related.1
      have memberNames := names_eq fields members converted fun _ _ related => related.1
      have memberDistinct : (members.map Prod.fst).Nodup := by rwa [memberNames, ← entryNames]
      rw [OrderedMap.entries_ofEntries members memberDistinct]
      refine .inr ⟨entries, members, rfl, rfl, distinct, plain, ?_⟩
      obtain ⟨entryLengths, eachEntry⟩ := List.forall₂_iff_get.mp typedMembers
      obtain ⟨memberLengths, eachMember⟩ := List.forall₂_iff_get.mp converted
      refine List.forall₂_iff_get.mpr ⟨entryLengths, fun index inFields inEntries => ?_⟩
      obtain ⟨named, nullOnly, typed⟩ := eachEntry index inFields inEntries
      obtain ⟨called, rich, isMember, converts⟩ :=
        eachMember index inFields (by rwa [← memberLengths])
      have isEntry := lookupEntry_of_mem entries _ _ distinct
        (List.get_mem entries ⟨index, inEntries⟩)
      have isCell := lookupEntry_of_mem members _ _ memberDistinct
        (List.get_mem members ⟨index, by rwa [← memberLengths]⟩)
      rw [called] at isCell
      rw [named] at isEntry
      rw [richMember, isEntry] at isMember
      cases isMember
      refine ⟨named, nullOnly, typed, ?_⟩
      rw [rowMember, isCell]
      exact converts

private theorem given_ne_null (type : DataType) (value : Rich) (cell : Value)
    (given : Given dateText type value cell) (notNull : value ≠ .null) : cell ≠ .null := by
  rintro rfl
  obtain ⟨typed, converts⟩ := given
  cases typed with
  | null => exact notNull rfl
  | bigint value =>
      simp only [richToCanonical, isRichNull, Bool.false_eq_true, if_false, scalarToCanonical,
        checkInteger] at converts
      split at converts <;> cases converts
  | array item elements each =>
      simp only [richToCanonical, listToCanonical, isRichNull, Bool.false_eq_true, if_false,
        richElements, except_ok_bind] at converts
      obtain ⟨items, _, converts⟩ := except_bind_ok _ _ _ converts
      cases converts
  | object fields entries members distinct plain =>
      simp only [richToCanonical, isRichNull, Bool.false_eq_true, if_false] at converts
      obtain ⟨items, _, converts⟩ := except_bind_ok _ _ _ converts
      cases converts
  | _ => cases converts

private theorem read_nullType (data : NestedData library) (row : Nat) :
    Nested.readCanonicalValue library .null data row = .null := by
  cases data with
  | leaf column =>
      rw [Nested.readCanonicalValue]
      unfold readFromData
      split <;> rfl
  | _ => rfl

/-- The children of a struct column give the members of its rows back. -/
def ChildrenGiveBack (fields : List Field) : Prop :=
  ∀ index cells columns, (∀ cell ∈ cells, cell = .null ∨ ∃ entries,
      RowGiven dateText fields entries cell) →
    buildStructData nested fields index cells = .ok columns →
    ∀ (row : Nat) entries cell, cells[row]? = some cell → RowGiven dateText fields entries cell →
      readStruct library fields columns row =
        entries.map fun entry => (entry.1, entry.2.kept.toValue)

private theorem childCell_of_ne_null (name : Text) (index : Nat) (cell : Value)
    (notNull : rowMember cell name ≠ .null) : childCell name index cell = rowMember cell name := by
  unfold childCell
  rw [if_neg]
  intro null
  cases held : rowMember cell name <;> simp_all [isCanonicalNull]

private theorem childrenGiveBack_cons (field : Field) (fields : List Field)
    (first : GivesBack nested dateText field.type)
    (others : ChildrenGiveBack nested dateText fields) :
    ChildrenGiveBack nested dateText (field :: fields) := by
  intro index cells columns given built row entries cell here givenHere
  rw [buildStructData] at built
  obtain ⟨column, here', built⟩ := except_bind_ok _ _ _ built
  obtain ⟨rest, later, built⟩ := except_bind_ok _ _ _ built
  cases built
  cases givenHere with
  | @cons _ entry _ entries isEntry givenRest =>
      obtain ⟨named, nullOnly, givenCell⟩ := isEntry
      have restGiven : ∀ cell ∈ cells, cell = .null ∨ ∃ entries,
          RowGiven dateText fields entries cell := by
        intro cell member
        rcases given cell member with null | ⟨_, rowGiven⟩
        · exact .inl null
        · cases rowGiven with
          | cons _ rowGiven => exact .inr ⟨_, rowGiven⟩
      rw [readStruct, List.map_cons, named,
        others (index + 1) cells rest restGiven later row entries cell here givenRest]
      congr 2
      by_cases null : field.type = .null
      · have typed := givenCell.typed
        rw [null] at typed ⊢
        rw [read_nullType]
        generalize entry.2 = value at typed
        cases typed
        rfl
      · have filled := given_ne_null dateText _ _ _ givenCell fun same => null (nullOnly same)
        refine first _ column ?_ here' row entry.2 _ ?_ givenCell
        · intro member isMember
          obtain ⟨other, isCell, rfl⟩ := List.mem_map.mp isMember
          rcases given other isCell with rfl | ⟨_, rowGiven⟩
          · exact .inl rfl
          · cases rowGiven with
            | @cons _ entry _ _ isEntry _ =>
                obtain ⟨_, nullOnly, givenOther⟩ := isEntry
                have filled := given_ne_null dateText _ _ _ givenOther fun same =>
                  null (nullOnly same)
                rw [childCell_of_ne_null _ index other filled]
                exact .inr ⟨entry.2, givenOther⟩
        · rw [List.getElem?_map, here, Option.map_some,
            childCell_of_ne_null _ index cell filled]

private theorem toEntries_keptEntries (entries : List (Text × Rich)) :
    Rich.toEntries (Rich.keptEntries entries) =
      entries.map fun entry => (entry.1, entry.2.kept.toValue) := by
  induction entries with
  | nil => rfl
  | cons entry rest ih => simp [Rich.keptEntries, Rich.toEntries, ih]

private theorem givesBack_struct (fields : List Field)
    (children : ChildrenGiveBack nested dateText fields) :
    GivesBack nested dateText (.struct fields) := by
  intro cells data given built index value cell here givenHere
  have rows : ∀ cell ∈ cells, cell = .null ∨ ∃ entries, RowGiven dateText fields entries cell := by
    intro cell member
    rcases given cell member with null | ⟨value, givenCell⟩
    · exact .inl null
    · rcases given_object dateText fields value cell givenCell with
        ⟨_, null⟩ | ⟨entries, _, _, _, _, _, rowGiven⟩
      · exact .inl null
      · exact .inr ⟨entries, rowGiven⟩
  rcases given_object dateText fields value cell givenHere with
    ⟨rfl, rfl⟩ | ⟨entries, members, rfl, rfl, distinct, plain, rowGiven⟩
  · exact givesBack_null nested dateText _ cells data built index .null here givenHere
  · rw [buildColumnData] at built
    obtain ⟨columns, made, built⟩ := except_bind_ok _ _ _ built
    cases built
    have read := children 0 cells columns rows made index entries _ here rowGiven
    have whole : assigned (entries.map fun entry => (entry.1, entry.2.kept.toValue)) =
        entries.map fun entry => (entry.1, entry.2.kept.toValue) := by
      have names : (entries.map fun entry => (entry.1, entry.2.kept.toValue)).map Prod.fst =
          entries.map Prod.fst := by
        rw [List.map_map]
        rfl
      rw [assigned_of_absent _ _ names plain, objectOf,
        OrderedMap.entries_ofEntries _ (names ▸ distinct)]
    rw [Nested.readCanonicalValue, if_pos (validity_value cells index _ here (by simp)), read,
      whole, Rich.kept, Rich.toValue, toEntries_keptEntries]

/-! ## Columns of every type -/

private theorem givesBack_leaf (type : DataType) (isLeaf : type.isLeaf = true) :
    GivesBack nested dateText type := by
  intro cells data given built index value cell here givenHere
  obtain ⟨column, rfl, written⟩ := leaf_built nested type isLeaf cells data built
  rw [read_leaf type isLeaf]
  exact reads_given library dateText type value cell givenHere isLeaf cells column index written here

/-- Of a type that no value but null is of. -/
private theorem givesBack_nulls (type : DataType)
    (nulls : ∀ value, Typed type value → value = .null) : GivesBack nested dateText type := by
  intro cells data given built index value cell here givenHere
  obtain rfl := nulls value givenHere.typed
  exact givesBack_null nested dateText type cells data built index cell here givenHere

mutual

theorem givesBack : ∀ type : DataType, GivesBack nested dateText type
  | .list [⟨name, type, nullable, metadata⟩] =>
      givesBack_list nested dateText ⟨name, type, nullable, metadata⟩ (givesBack type)
  | .struct fields => givesBack_struct nested dateText fields (childrenGiveBack fields)
  | .list [] | .list (_ :: _ :: _) | .union _ _ _ | .fixedSizeList _ _ | .map _ _
  | .dictionary _ _ _ _ =>
      givesBack_nulls nested dateText _ fun value typed => by
        cases typed
        rfl
  | .null | .int _ _ | .float _ | .binary | .utf8 | .bool | .decimal _ _ _ | .date _ | .time _ _
  | .timestamp _ _ | .interval _ | .fixedSizeBinary _ | .duration _ | .largeBinary | .largeUtf8 =>
      givesBack_leaf nested dateText _ rfl

theorem childrenGiveBack : ∀ fields : List Field, ChildrenGiveBack nested dateText fields
  | [] => by
      intro index cells columns given built row entries cell here givenHere
      cases givenHere
      rfl
  | ⟨name, type, nullable, metadata⟩ :: fields =>
      childrenGiveBack_cons nested dateText ⟨name, type, nullable, metadata⟩ fields
        (givesBack type) (childrenGiveBack fields)

end

end

end VgiWorker.Arrow
