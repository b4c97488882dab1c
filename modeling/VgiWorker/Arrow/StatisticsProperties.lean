import VgiWorker.Arrow.Statistics
import VgiWorker.Data.Result
import VgiWorker.Js.NumberProperties

/-!
# What the bounds say on the wire

When a row's type code leads back to its bound under its own type, on each
backend and between the two.
-/

set_option autoImplicit false

namespace VgiWorker.Arrow

open VgiWorker.Js

section

variable (dateText : Number → Text) (store : CellStore)

/-! ## Cells -/

/-- What a column of a type gives back for a rich value. -/
def Keeps (type : DataType) (value : Rich) (kept : Value) : Prop :=
  ∃ canonical, richToCanonical dateText type value = .ok canonical ∧
    store.keep type canonical = .ok kept

/-- A codec passes null through, unless its type is malformed and it accepts nothing. -/
theorem richToCanonical_null : ∀ type : DataType,
    richToCanonical dateText type .null = .ok .null ∨
      ∀ value, ∃ fault, richToCanonical dateText type value = .error fault
  | .dictionary _ values _ _ => by
      simp only [richToCanonical]
      exact richToCanonical_null values
  | .list [] | .fixedSizeList _ [] => .inr fun _ => ⟨_, rfl⟩
  | .list (_ :: _) | .fixedSizeList _ (_ :: _) => .inl rfl
  | .map sorted children => by
      simp only [richToCanonical]
      unfold mapToCanonical
      split
      · exact .inl rfl
      · exact .inr fun _ => ⟨_, rfl⟩
  | .struct _ | .null | .int _ _ | .float _ | .binary | .utf8 | .bool | .decimal _ _ _ | .date _
  | .time _ _ | .timestamp _ _ | .interval _ | .union _ _ _ | .fixedSizeBinary _ | .duration _
  | .largeBinary | .largeUtf8 => .inl rfl

private theorem toCanonical_ok_iff (type : DataType) (value : Rich) (canonical : Value) :
    toCanonical dateText type value = .ok canonical ↔
      richToCanonical dateText type value = .ok canonical := by
  unfold toCanonical
  cases richToCanonical dateText type value <;> simp [Except.mapError]

private theorem keepCell_ok_iff (type : DataType) (value kept : Value) :
    keepCell store type value = .ok kept ↔ store.keep type value = .ok kept := by
  unfold keepCell
  cases store.keep type value <;> simp [Except.mapError]

/-- A typed column, cell by cell. -/
theorem buildTypedColumn_iff (type : DataType) (values : List Rich) (cells : Column) :
    buildTypedColumn dateText store values type = .ok cells ↔
      List.Forall₂ (Keeps dateText store type) values cells := by
  unfold buildTypedColumn
  constructor
  · intro built
    obtain ⟨canonical, converted, kept⟩ := except_bind_ok _ _ _ built
    have first := (except_mapM_iff _ _ _).mp converted
    have second := (except_mapM_iff _ _ _).mp kept
    clear built converted kept
    induction first generalizing cells with
    | nil =>
        cases second
        exact .nil
    | cons here _ ih =>
        cases second with
        | cons there others =>
            exact .cons ⟨_, (toCanonical_ok_iff dateText _ _ _).mp here,
              (keepCell_ok_iff store _ _ _).mp there⟩ (ih _ others)
  · intro related
    induction related with
    | nil => rfl
    | @cons value cell values cells keeps _ ih =>
        obtain ⟨canonical, converted, kept⟩ := keeps
        obtain ⟨others, restConverted, restKept⟩ := except_bind_ok _ _ _ ih
        rw [List.mapM_cons, (toCanonical_ok_iff dateText _ _ _).mpr converted, except_ok_bind,
          restConverted, except_ok_bind]
        change ((canonical :: others).mapM (keepCell store type)) = _
        rw [List.mapM_cons, (keepCell_ok_iff store _ _ _).mpr kept, except_ok_bind, restKept]
        rfl

/-! ## Unions -/

/-- A union that was built from values and codes: the child of a code holds the rows of that
code, each as `Kept` says. -/
structure UnionHolds (Kept : DataType → Rich → Value → Prop) (values : List Rich)
    (codes : List Nat) (typeOrder : List DataType) (column : UnionColumn) : Prop where
  typeIds : column.typeIds = codes.map int8
  childIds : column.childIds = (List.range typeOrder.length).map Int.ofNat
  types : column.children.map (·.1) = typeOrder
  cells : ∀ (code : Nat) type, typeOrder[code]? = some type →
    ∃ cells, column.children[code]? = some (type, cells) ∧
      ∀ row : Nat, ∀ value, values[row]? = some value → codes[row]? = some code →
        ∃ kept, cells[row]? = some kept ∧ Kept type value kept

/-- The children of a union, each built from its type and code. -/
private theorem unionHolds_of_children (Kept : DataType → Rich → Value → Prop)
    (values : List Rich) (codes : List Nat) (typeOrder : List DataType)
    (build : DataType × Nat → Except StatisticsFault (DataType × Column))
    (children : List (DataType × Column)) (built : typeOrder.zipIdx.mapM build = .ok children)
    (holds : ∀ type code child, typeOrder[code]? = some type →
      build (type, code) = .ok child → child.1 = type ∧
      ∀ row : Nat, ∀ value, values[row]? = some value → codes[row]? = some code →
        ∃ kept, child.2[row]? = some kept ∧ Kept type value kept) :
    UnionHolds Kept values codes typeOrder
      { typeIds := codes.map int8
        childIds := (List.range typeOrder.length).map Int.ofNat
        children } := by
  have related := (except_mapM_iff _ _ _).mp built
  refine ⟨rfl, rfl, ?_, ?_⟩
  · have types : List.Forall₂ (fun (input : DataType × Nat) child => child.1 = input.1)
        typeOrder.zipIdx children :=
      (List.forall₂_iff_zip.mp related).elim fun lengths each => by
        refine List.forall₂_iff_zip.mpr ⟨lengths, fun {input child} member => ?_⟩
        obtain ⟨inputMember, _⟩ := List.of_mem_zip member
        have here := List.mk_mem_zipIdx_iff_getElem?.mp inputMember
        exact (holds input.1 input.2 child here (each member)).1
    have mapped : List.Forall₂ Eq (children.map (·.1)) (typeOrder.zipIdx.map (·.1)) :=
      List.forall₂_map_left_iff.mpr (List.forall₂_map_right_iff.mpr types.flip)
    rw [List.forall₂_eq_eq_eq] at mapped
    exact mapped.trans (List.zipIdx_map_fst 0 typeOrder)
  · intro code type here
    have input : typeOrder.zipIdx[code]? = some (type, code) := by simp [here]
    obtain ⟨child, there, success⟩ := forall₂_getElem? related code _ input
    obtain ⟨same, rows⟩ := holds type code child here success
    exact ⟨child.2, by rw [there, ← same], rows⟩

private theorem exists_forall₂ {α β : Type} (R : α → β → Prop) (inputs : List α)
    (each : ∀ input ∈ inputs, ∃ result, R input result) :
    ∃ results, List.Forall₂ R inputs results := by
  induction inputs with
  | nil => exact ⟨[], .nil⟩
  | cons input rest ih =>
      obtain ⟨result, here⟩ := each input List.mem_cons_self
      obtain ⟨results, later⟩ := ih fun other member => each other (List.mem_cons_of_mem _ member)
      exact ⟨result :: results, .cons here later⟩

private theorem getElem?_zip {α β : Type} (left : List α) (right : List β) (index : Nat) (first : α)
    (second : β) (here : left[index]? = some first) (there : right[index]? = some second) :
    (left.zip right)[index]? = some (first, second) := by
  simp [List.getElem?_zip_eq_some, here, there]

theorem ArrowJs.union_holds (values : List Rich) (codes : List Nat) (typeOrder : List DataType)
    (column : UnionColumn)
    (built : ArrowJs.buildUnionColumn dateText store values codes typeOrder = .ok column) :
    UnionHolds (fun type value kept => type = .null ∧ kept = .null ∨
      Keeps dateText store type value kept) values codes typeOrder column := by
  obtain ⟨children, childrenBuilt, made⟩ := except_bind_ok _ _ _ built
  cases made
  refine unionHolds_of_children _ values codes typeOrder _ children childrenBuilt ?_
  intro type code child named success
  obtain ⟨cells, columnBuilt, made⟩ := except_bind_ok _ _ _ success
  cases made
  refine ⟨rfl, ?_⟩
  intro row value here coded
  have own : ((values.zip codes).map fun row => if row.2 = code then row.1 else .null)[row]? =
      some value := by
    simp [getElem?_zip values codes row value code here coded]
  unfold ArrowJs.buildTypedColumnData at columnBuilt
  split at columnBuilt
  · rename_i isNull
    cases columnBuilt
    exact ⟨.null, by simp only [List.getElem?_map, own, Option.map_some], .inl ⟨isNull, rfl⟩⟩
  · obtain ⟨kept, cell, keeps⟩ := forall₂_getElem?
      ((buildTypedColumn_iff dateText store _ _ _).mp columnBuilt) row value own
    exact ⟨kept, cell, .inr keeps⟩

theorem Flechette.union_holds (values : List Rich) (codes : List Nat) (typeOrder : List DataType)
    (column : UnionColumn)
    (built : Flechette.buildUnionColumn dateText store values codes typeOrder = .ok column) :
    UnionHolds (fun type value kept => value = .null ∧ kept = .null ∨
      Keeps dateText store type value kept) values codes typeOrder column := by
  obtain ⟨prepared, preparedBuilt, built⟩ := except_bind_ok _ _ _ built
  obtain ⟨children, childrenBuilt, made⟩ := except_bind_ok _ _ _ built
  cases made
  have each := (except_mapM_iff _ _ _).mp preparedBuilt
  refine unionHolds_of_children _ values codes typeOrder _ children childrenBuilt ?_
  intro type code child named success
  obtain ⟨cells, columnBuilt, made⟩ := except_bind_ok _ _ _ success
  cases made
  refine ⟨rfl, ?_⟩
  intro row value here coded
  have paired := getElem?_zip values codes row value code here coded
  obtain ⟨canonical, there, converted⟩ := forall₂_getElem? each row _ paired
  have own : ((prepared.zip codes).map fun row => if row.2 = code then row.1 else .null)[row]? =
      some canonical := by
    simp [getElem?_zip prepared codes row canonical code there coded]
  obtain ⟨kept, cell, keeps⟩ := forall₂_getElem? ((except_mapM_iff _ _ _).mp columnBuilt) row
    canonical own
  have stored := (keepCell_ok_iff store _ _ _).mp keeps
  refine ⟨kept, cell, ?_⟩
  by_cases isNull : isRichNull value = true
  · rw [if_pos isNull] at converted
    cases converted
    rw [store.null] at stored
    cases stored
    exact .inl ⟨(isRichNull_iff value).mp isNull, rfl⟩
  · rw [if_neg isNull, named] at converted
    exact .inr ⟨canonical, (toCanonical_ok_iff dateText _ _ _).mp converted, stored⟩

/-- The rows of a child: its own values, and null elsewhere. -/
private theorem own_keeps (type : DataType) (values : List Rich) (codes : List Nat) (code : Nat)
    (nulls : richToCanonical dateText type .null = .ok .null)
    (each : ∀ row : Nat, ∀ value, values[row]? = some value → codes[row]? = some code →
      ∃ kept, Keeps dateText store type value kept) :
    ∀ value ∈ (values.zip codes).map fun row => if row.2 = code then row.1 else .null,
      ∃ kept, Keeps dateText store type value kept := by
  intro value member
  obtain ⟨row, inside, rfl⟩ := List.mem_map.mp member
  by_cases own : row.2 = code
  · rw [if_pos own]
    obtain ⟨index, here⟩ := List.mem_iff_getElem?.mp inside
    obtain ⟨left, right⟩ := List.getElem?_zip_eq_some.mp here
    exact each index row.1 left (by rw [right, own])
  · rw [if_neg own]
    exact ⟨.null, .null, nulls, store.null type⟩

theorem ArrowJs.union_builds (values : List Rich) (codes : List Nat) (typeOrder : List DataType)
    (nulls : ∀ type ∈ typeOrder, richToCanonical dateText type .null = .ok .null)
    (each : ∀ row code : Nat, ∀ value type, values[row]? = some value → codes[row]? = some code →
      typeOrder[code]? = some type → ∃ kept, Keeps dateText store type value kept) :
    ∃ column, ArrowJs.buildUnionColumn dateText store values codes typeOrder = .ok column := by
  refine except_bind_exists _ _ (except_mapM_exists _ _ ?_) fun children _ => ⟨_, rfl⟩
  rintro ⟨type, code⟩ member
  have named := List.mk_mem_zipIdx_iff_getElem?.mp member
  refine except_bind_exists _ _ ?_ fun cells _ => ⟨_, rfl⟩
  unfold ArrowJs.buildTypedColumnData
  split
  · exact ⟨_, rfl⟩
  · have keeps := own_keeps dateText store type values codes code
      (nulls type (List.mem_of_getElem? named))
      fun row value here coded => each row code value type here coded named
    obtain ⟨cells, related⟩ := exists_forall₂ _ _ keeps
    exact ⟨cells, (buildTypedColumn_iff dateText store _ _ _).mpr related⟩

theorem Flechette.union_builds (values : List Rich) (codes : List Nat) (typeOrder : List DataType)
    (bounded : ∀ code ∈ codes, code < typeOrder.length)
    (each : ∀ row code : Nat, ∀ value type, values[row]? = some value → codes[row]? = some code →
      typeOrder[code]? = some type → ∃ kept, Keeps dateText store type value kept) :
    ∃ column, Flechette.buildUnionColumn dateText store values codes typeOrder = .ok column := by
  refine except_bind_exists _ _ (except_mapM_exists _ _ ?_) fun prepared preparedBuilt => ?_
  · rintro ⟨value, code⟩ member
    obtain ⟨row, here⟩ := List.mem_iff_getElem?.mp member
    obtain ⟨left, right⟩ := List.getElem?_zip_eq_some.mp here
    have named := List.getElem?_eq_getElem (bounded code (List.of_mem_zip member).2)
    obtain ⟨kept, canonical, converted, _⟩ := each row code value _ left right named
    by_cases isNull : isRichNull value = true
    · exact ⟨.null, if_pos isNull⟩
    · refine ⟨canonical, ?_⟩
      simp only [if_neg isNull, named, Option.getD_some]
      exact (toCanonical_ok_iff dateText _ _ _).mpr converted
  · have rows := (except_mapM_iff _ _ _).mp preparedBuilt
    refine except_bind_exists _ _ (except_mapM_exists _ _ ?_) fun children _ => ⟨_, rfl⟩
    rintro ⟨type, code⟩ member
    have named := List.mk_mem_zipIdx_iff_getElem?.mp member
    refine except_bind_exists _ _ (except_mapM_exists _ _ ?_) fun cells _ => ⟨_, rfl⟩
    intro cell inside
    obtain ⟨⟨canonical, other⟩, pair, rfl⟩ := List.mem_map.mp inside
    by_cases own : other = code
    · obtain ⟨row, here⟩ := List.mem_iff_getElem?.mp pair
      obtain ⟨left, right⟩ := List.getElem?_zip_eq_some.mp here
      obtain ⟨⟨value, again⟩, source, converted⟩ := forall₂_getElem? rows.flip row canonical left
      obtain ⟨valueHere, codeHere⟩ := List.getElem?_zip_eq_some.mp source
      cases right.symm.trans codeHere
      cases own
      simp only [if_true]
      by_cases isNull : isRichNull value = true
      · simp only [if_pos isNull] at converted
        cases converted
        exact ⟨.null, (keepCell_ok_iff store _ _ _).mpr (store.null type)⟩
      · obtain ⟨kept, own, ownConverted, stored⟩ := each row _ value type valueHere codeHere named
        simp only [if_neg isNull, named, Option.getD_some] at converted
        cases ((toCanonical_ok_iff dateText _ _ _).mp converted).symm.trans ownConverted
        exact ⟨kept, (keepCell_ok_iff store _ _ _).mpr stored⟩
    · exact ⟨.null, by
        simp only [if_neg own]
        exact (keepCell_ok_iff store _ _ _).mpr (store.null type)⟩

/-! ## Reading a row -/

private theorem int8_small (code : Nat) (small : code < 128) : int8 code = code := by
  unfold int8
  omega

private theorem idxOf?_range (count code : Nat) (bound : code < count) :
    ((List.range count).map Int.ofNat).idxOf? (code : Int) = some code := by
  rw [List.idxOf?, List.findIdx?_eq_some_iff_getElem]
  refine ⟨by simpa using bound, by simp, ?_⟩
  intro earlier before
  simp
  omega

/-- A row of one of the first 128 codes is read from the child of its code. -/
theorem UnionHolds.at_small {Kept : DataType → Rich → Value → Prop} {values : List Rich}
    {codes : List Nat} {typeOrder : List DataType} {column : UnionColumn}
    (holds : UnionHolds Kept values codes typeOrder column) (row code : Nat) (type : DataType)
    (value : Rich) (here : values[row]? = some value) (coded : codes[row]? = some code)
    (named : typeOrder[code]? = some type) (small : code < 128) :
    ∃ kept, Kept type value kept ∧ column.at? row = some (type, kept) := by
  have bound := (List.getElem?_eq_some_iff.mp named).1
  obtain ⟨cells, child, rows⟩ := holds.cells code type named
  obtain ⟨kept, cell, keeps⟩ := rows row value here coded
  refine ⟨kept, keeps, ?_⟩
  simp [UnionColumn.at?, holds.typeIds, holds.childIds, coded, int8_small code small,
    idxOf?_range typeOrder.length code bound, child, readCanonicalValue, cell]

/-- The code 128 is stored as -128, which names no child. -/
theorem UnionHolds.at_wrapped {Kept : DataType → Rich → Value → Prop} {values : List Rich}
    {codes : List Nat} {typeOrder : List DataType} {column : UnionColumn}
    (holds : UnionHolds Kept values codes typeOrder column) (row : Nat)
    (coded : codes[row]? = some 128) : column.at? row = none := by
  have absent : ((List.range typeOrder.length).map Int.ofNat).idxOf? (-128) = none := by
    rw [List.idxOf?, List.findIdx?_eq_none_iff]
    intro code member
    obtain ⟨index, _, rfl⟩ := List.mem_map.mp member
    simp
  have wrapped : int8 128 = -128 := by decide
  simp [UnionColumn.at?, holds.typeIds, holds.childIds, coded, wrapped, absent]

end

end VgiWorker.Arrow
