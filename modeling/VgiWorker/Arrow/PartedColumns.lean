import VgiWorker.Arrow.FlechetteColumn

/-!
# Columns of several batches

A cell is looked up in the batch that holds its row, and so is its validity.
Structs and unions are read from the buffers of the first batch instead,
whichever batch their row is in.
-/

set_option autoImplicit false

namespace VgiWorker.Arrow.Flechette

open VgiWorker.Js

/-! ## Rows and their batches -/

private theorem owner_lengths (data : List Chunk) (index : Nat) (chunk : Chunk) (row : Nat)
    (owned : owner data index = some (chunk, row)) :
    ∃ part, Data.locate (lengths data) index = some (part, row) ∧ data[part]? = some chunk := by
  obtain ⟨⟨part, place⟩, found, held⟩ := Option.bind_eq_some_iff.mp owned
  obtain ⟨held, isHeld, same⟩ := Option.map_eq_some_iff.mp held
  cases same
  exact ⟨part, found, isHeld⟩

/-- A row of the first batch has the same index there. -/
private theorem owner_first (first : Chunk) (rest : List Chunk) (index : Nat)
    (inside : index < first.length) : owner (first :: rest) index = some (first, index) := by
  simp [owner, lengths, Data.locate, inside]

private theorem columnAt_owner (data : List Chunk) (index : Nat) (chunk : Chunk) (row : Nat)
    (owned : owner data index = some (chunk, row)) : columnAt data index = chunk.cellAt row := by
  unfold columnAt
  split
  · rename_i only
    obtain ⟨part, found, held⟩ := owner_lengths [only] index chunk row owned
    by_cases inside : index < only.length
    · rw [owner_first only [] index inside] at owned
      cases owned
      rfl
    · simp [lengths, Data.locate, inside] at found
  · rw [owned]

/-- The binary search finds the batch of a row. -/
theorem columnIsValid_owner (data : List Chunk) (index : Nat) (chunk : Chunk) (row : Nat)
    (owned : owner data index = some (chunk, row)) :
    columnIsValid data index = batchIsValid (some chunk) row := by
  obtain ⟨part, found, held⟩ := owner_lengths data index chunk row owned
  obtain ⟨isPart, before, le⟩ := Data.bisect_partialSums (lengths data) index part row found
  unfold columnIsValid
  split
  · rename_i only
    by_cases inside : index < only.length
    · rw [owner_first only [] index inside] at owned
      cases owned
      rfl
    · simp [lengths, Data.locate, inside] at found
  · rw [lengths, List.length_map] at isPart
    dsimp only
    rw [lengths] at before
    rw [lengths, isPart, before, held, Option.getD_some, Nat.sub_sub_self le]

/-! ## Batches of a type -/

/-- Rows without a value are read as null. -/
def KeepsNulls (chunk : Chunk) : Prop :=
  ∀ row, isNullAt (some chunk) row = true → chunk.cellAt row = .null

/-- A union that lists no codes takes any. -/
def Allows (typeIds : List Int) (code : Int) : Prop :=
  code ∈ typeIds ∨ typeIds = []

mutual

/-- A batch of a type as the library reads it from a stream. -/
def BatchOf : DataType → Chunk → Prop
  | .struct children, chunk =>
      KeepsNulls chunk ∧ ∃ nodes, chunk.children = some nodes ∧ EachBatchOf children nodes ∧
        ∀ node ∈ nodes, node.length = chunk.length
  | .union mode typeIds children, chunk =>
      chunk.validity = none ∧ ∃ nodes rows, chunk.children = some nodes ∧
        chunk.unionRows = some rows ∧ EachBatchOf children nodes ∧
        rows.typeIds.length = chunk.length ∧ (∀ code ∈ rows.typeIds, Allows typeIds code) ∧
        (rows.offsets.isSome ↔ mode = .dense)
  | .list children, chunk | .fixedSizeList _ children, chunk | .map _ children, chunk =>
      KeepsNulls chunk ∧ ∃ nodes, chunk.children = some nodes ∧ EachBatchOf children nodes
  | _, chunk => KeepsNulls chunk ∧ chunk.children = none

/-- The nodes of the children, one for each field. -/
def EachBatchOf : List (FieldOf DataType) → List Chunk → Prop
  | [], nodes => nodes = []
  | ⟨_, type, _, _⟩ :: rest, nodes => ∃ node others, nodes = node :: others ∧ BatchOf type node ∧
      EachBatchOf rest others

end

/-- A column of a type in batches of these lengths. -/
def ColumnOf (type : DataType) (lengths : List Nat) (data : List Chunk) : Prop :=
  List.Forall₂ (fun length chunk => chunk.length = length ∧ BatchOf type chunk) lengths data

section

variable (typeMap : List Int → Int → Option Int)

/-- A type whose rows are read from the buffers of a batch: a struct, or a union with a code that
selects a member. -/
def ReadsBuffers : DataType → Prop
  | .struct _ => True
  | .union _ typeIds children => ∃ code, Allows typeIds code ∧
      ∃ member : Nat, childIndex typeMap typeIds code = member ∧ member < children.length
  | _ => False

/-- A row of a column is read, and its validity, as from the batch that holds it. -/
def ReadsAsOwned (type : DataType) (data : List Chunk) (index : Nat) : Prop :=
  ∀ chunk row, owner data index = some (chunk, row) →
    readCanonicalValue typeMap type (.column data) index =
        readCanonicalValue typeMap type (.column [chunk]) row ∧
      columnIsValid data index = batchIsValid (some chunk) row

/-! ## Rows that are read from their batch -/

private theorem readCanonicalValue_first (type : DataType) (first : Chunk) (rest : List Chunk)
    (index : Nat) (inside : index < first.length) :
    readCanonicalValue typeMap type (.column (first :: rest)) index =
      readCanonicalValue typeMap type (.column [first]) index := by
  have cell : (Source.column (first :: rest)).readAt index = (Source.column [first]).readAt index :=
    columnAt_owner (first :: rest) index first index (owner_first first rest index inside)
  have node : childData (.column (first :: rest)) = childData (.column [first]) := rfl
  cases type <;> simp only [readCanonicalValue, cell, node]

private theorem readMember_beyond (children : List (FieldOf DataType)) (member : Nat)
    (node : Source) (row : Nat) (beyond : children.length ≤ member) :
    readMember typeMap children member node row = .ok (taggedUnion .null .null) := by
  induction children generalizing member with
  | nil => simp only [readMember]
  | cons child rest ih =>
      cases member with
      | zero => simp at beyond
      | succ earlier =>
          obtain ⟨name, type, nullable, metadata⟩ := child
          simp only [readMember]
          exact ih earlier (Nat.le_of_succ_le_succ beyond)

/-- Where no code selects a member, every row of a union reads alike. -/
private theorem readCanonicalValue_memberless (mode : UnionMode) (typeIds : List Int)
    (children : List (FieldOf DataType))
    (memberless : ¬ReadsBuffers typeMap (.union mode typeIds children))
    (data : List Chunk) (each : ∀ chunk ∈ data, BatchOf (.union mode typeIds children) chunk)
    (index : Nat) :
    readCanonicalValue typeMap (.union mode typeIds children) (.column data) index =
      .ok (taggedUnion .null .null) := by
  rw [readCanonicalValue]
  cases data with
  | nil => simp [childData, isNullAt]
  | cons first rest =>
      have batch := each first List.mem_cons_self
      rw [BatchOf] at batch
      obtain ⟨_, nodes, rows, isNodes, isRows, _, _, allowed, _⟩ := batch
      cases isCode : rows.typeIds[index]? with
      | none => simp [childData, typeCode, isRows, isCode]
      | some code =>
          have allows := allowed code (List.mem_of_getElem? isCode)
          cases selected : childIndex typeMap typeIds code with
          | negSucc below => simp [childData, typeCode, isRows, isCode, isNodes, selected]
          | ofNat member =>
              have beyond : children.length ≤ member := by
                by_contra inside
                exact memberless ⟨code, allows, member, selected, Nat.lt_of_not_le inside⟩
              simp [childData, typeCode, isRows, isCode, isNodes, selected,
                readMember_beyond typeMap children member _ _ beyond]

/-- A type that is not read from buffers is read cell by cell. -/
private theorem readCanonicalValue_unread (type : DataType) (unread : ¬ReadsBuffers typeMap type)
    (data : List Chunk) (each : ∀ chunk ∈ data, BatchOf type chunk) (index : Nat) (chunk : Chunk)
    (row : Nat) (owned : owner data index = some (chunk, row)) :
    readCanonicalValue typeMap type (.column data) index =
      readCanonicalValue typeMap type (.column [chunk]) row := by
  have cell : (Source.column data).readAt index = (Source.column [chunk]).readAt row :=
    columnAt_owner data index chunk row owned
  cases type with
  | struct children => exact absurd trivial unread
  | union mode typeIds children =>
      obtain ⟨part, _, held⟩ := owner_lengths data index chunk row owned
      have whole := readCanonicalValue_memberless typeMap mode typeIds children unread data each index
      have alone := readCanonicalValue_memberless typeMap mode typeIds children unread [chunk]
        (List.forall_mem_singleton.mpr (each chunk (List.mem_of_getElem? held))) row
      exact whole.trans alone.symm
  | _ => simp only [readCanonicalValue, cell]

private theorem lengths_column (type : DataType) (sizes : List Nat) (data : List Chunk)
    (isColumn : ColumnOf type sizes data) : lengths data = sizes := by
  induction isColumn with
  | nil => rfl
  | cons here _ ih => exact congrArg₂ List.cons here.1 ih

private theorem batchOf_column (type : DataType) (sizes : List Nat) (data : List Chunk)
    (isColumn : ColumnOf type sizes data) : ∀ chunk ∈ data, BatchOf type chunk := by
  induction isColumn with
  | nil => simp
  | cons here _ ih => exact List.forall_mem_cons.mpr ⟨here.2, ih⟩

private theorem owner_inside (data : List Chunk) (index : Nat) (chunk : Chunk) (row : Nat)
    (owned : owner data index = some (chunk, row)) : index < (lengths data).sum := by
  obtain ⟨part, found, _⟩ := owner_lengths data index chunk row owned
  exact (Data.locate_isSome (lengths data) index).mp (Option.isSome_of_eq_some found)

/-! ## Batches without values -/

/-- A batch of nulls. -/
def nullBatch (length : Nat) (children : Option (List Chunk)) : Chunk where
  length := length
  nullCount := length
  validity := some (List.replicate (length / 8 + 1) 0)
  children := children
  unionRows := none
  cellAt := fun _ => .null

/-- The rows of a union that all have one code. -/
def sameCode (mode : UnionMode) (code : Int) (length : Nat) : UnionRows where
  typeIds := List.replicate length code
  offsets := if mode = .dense then some (List.range length) else none
  aligned := fun rows here => by
    split at here
    · cases here
      simp
    · cases here

def unionBatch (mode : UnionMode) (code : Int) (length : Nat) (children : List Chunk) : Chunk where
  length := length
  nullCount := 0
  validity := none
  children := some children
  unionRows := some (sameCode mode code length)
  cellAt := fun _ => .null

mutual

def blankBatch : DataType → Nat → Chunk
  | .union mode typeIds children, length =>
      unionBatch mode (typeIds.headD 0) length (blankBatches children length)
  | .struct children, length | .list children, length | .fixedSizeList _ children, length
  | .map _ children, length => nullBatch length (some (blankBatches children length))
  | _, length => nullBatch length none

def blankBatches : List (FieldOf DataType) → Nat → List Chunk
  | [], _ => []
  | ⟨_, type, _, _⟩ :: rest, length => blankBatch type length :: blankBatches rest length

end

private theorem keepsNulls_nullBatch (length : Nat) (children : Option (List Chunk)) :
    KeepsNulls (nullBatch length children) := fun _ _ => rfl

private theorem allows_headD (typeIds : List Int) : Allows typeIds (typeIds.headD 0) := by
  cases typeIds with
  | nil => exact .inr rfl
  | cons first rest => exact .inl List.mem_cons_self

private theorem batchOf_unionBatch (mode : UnionMode) (typeIds : List Int) (code : Int)
    (allowed : Allows typeIds code) (children : List (FieldOf DataType)) (length : Nat)
    (nodes : List Chunk) (each : EachBatchOf children nodes) :
    BatchOf (.union mode typeIds children) (unionBatch mode code length nodes) := by
  rw [BatchOf]
  refine ⟨rfl, nodes, sameCode mode code length, rfl, rfl, each, List.length_replicate,
    fun other member => ?_, ?_⟩
  · cases List.eq_of_mem_replicate member
    exact allowed
  · cases mode <;> simp [sameCode]

private theorem length_blankBatch (type : DataType) (length : Nat) :
    (blankBatch type length).length = length := by
  cases type <;> simp only [blankBatch, nullBatch, unionBatch]

private theorem length_blankBatches (children : List (FieldOf DataType)) (length : Nat) :
    ∀ node ∈ blankBatches children length, node.length = length := by
  induction children with
  | nil => simp [blankBatches]
  | cons child rest ih =>
      obtain ⟨name, type, nullable, metadata⟩ := child
      intro node member
      rw [blankBatches] at member
      cases member with
      | head => exact length_blankBatch type length
      | tail _ later => exact ih node later

mutual

private theorem batchOf_blankBatch (length : Nat) :
    ∀ type, BatchOf type (blankBatch type length)
  | .union mode typeIds children => by
      rw [blankBatch]
      exact batchOf_unionBatch mode typeIds _ (allows_headD typeIds) children length _
        (eachBatchOf_blankBatches length children)
  | .struct children => by
      rw [blankBatch, BatchOf]
      exact ⟨keepsNulls_nullBatch _ _, _, rfl, eachBatchOf_blankBatches length children,
        length_blankBatches children length⟩
  | .list children | .fixedSizeList _ children | .map _ children => by
      rw [blankBatch, BatchOf]
      exact ⟨keepsNulls_nullBatch _ _, _, rfl, eachBatchOf_blankBatches length children⟩
  | .null | .int _ _ | .float _ | .binary | .utf8 | .bool | .decimal _ _ _ | .date _ | .time _ _
  | .timestamp _ _ | .interval _ | .fixedSizeBinary _ | .duration _ | .largeBinary | .largeUtf8
  | .dictionary _ _ _ _ => by
      simp only [blankBatch, BatchOf]
      exact ⟨keepsNulls_nullBatch _ _, rfl⟩

private theorem eachBatchOf_blankBatches (length : Nat) :
    ∀ children, EachBatchOf children (blankBatches children length)
  | [] => by simp only [blankBatches, EachBatchOf]
  | ⟨_, type, _, _⟩ :: rest => by
      rw [blankBatches, EachBatchOf]
      exact ⟨_, _, rfl, batchOf_blankBatch length type, eachBatchOf_blankBatches length rest⟩

end

/-! ## Rows that are read from the first batch -/

/-- A row past the first batch is held by one of the others. -/
private theorem owner_later (first : Chunk) (rest : List Chunk) (index : Nat)
    (past : first.length ≤ index) (inside : index < (lengths (first :: rest)).sum) :
    ∃ chunk row, owner (first :: rest) index = some (chunk, row) ∧ chunk ∈ rest ∧
      row < chunk.length := by
  obtain ⟨⟨part, row⟩, found⟩ := Option.isSome_iff_exists.mp
    ((Data.locate_isSome (lengths (first :: rest)) index).mpr inside)
  obtain ⟨length, isLength, bound, total⟩ := Data.locate_some _ index part row found
  rw [lengths, List.getElem?_map] at isLength
  obtain ⟨chunk, isChunk, same⟩ := Option.map_eq_some_iff.mp isLength
  refine ⟨chunk, row, by rw [owner, found, Option.bind_some, isChunk]; rfl, ?_, same ▸ bound⟩
  cases part with
  | zero =>
      cases isChunk
      simp only [List.take_zero, List.sum_nil] at total
      omega
  | succ before => exact List.mem_of_getElem? isChunk

private theorem isNullAt_nullBatch (length : Nat) (children : Option (List Chunk)) (row : Nat)
    (inside : row < length) : isNullAt (some (nullBatch length children)) row = true := by
  have byte : ((List.replicate (length / 8 + 1) (0 : UInt8))[row / 8]?.getD 0) = 0 := by
    rw [List.getElem?_replicate]
    split <;> rfl
  simp [isNullAt, nullBatch, bitAt, byte, Nat.ne_of_gt (Nat.zero_lt_of_lt inside)]

private theorem readMember_selected (children : List (FieldOf DataType)) (member : Nat)
    (node : Source) (row : Nat) (inside : member < children.length) :
    readMember typeMap children member node row ≠ .ok (taggedUnion .null .null) := by
  induction children generalizing member with
  | nil => cases inside
  | cons child rest ih =>
      obtain ⟨name, type, nullable, metadata⟩ := child
      cases member with
      | zero =>
          rw [readMember]
          cases readCanonicalValue typeMap type node row with
          | error failure =>
              intro same
              cases same
          | ok value =>
              show Except.ok (taggedUnion (.string name) value) ≠ .ok (taggedUnion .null .null)
              simp [taggedUnion]
      | succ earlier =>
          rw [readMember]
          exact ih earlier (Nat.lt_of_succ_lt_succ inside)

/-- A batch of structs without members' values, each row of which is there. -/
def presentBatch (children : List (FieldOf DataType)) (length : Nat) : Chunk where
  length := length
  nullCount := 0
  validity := none
  children := some (blankBatches children length)
  unionRows := none
  cellAt := fun _ => .object (children.map fun child => (child.name, .null))

private theorem batchOf_presentBatch (children : List (FieldOf DataType)) (length : Nat) :
    BatchOf (.struct children) (presentBatch children length) := by
  rw [BatchOf]
  refine ⟨fun row absent => ?_, _, rfl, eachBatchOf_blankBatches length children,
    length_blankBatches children length⟩
  simp [isNullAt, presentBatch] at absent

private theorem forall₂_map_self {relation : Nat → Chunk → Prop} (make : Nat → Chunk)
    (lengths : List Nat) (each : ∀ length, relation length (make length)) :
    List.Forall₂ relation lengths (lengths.map make) := by
  induction lengths with
  | nil => exact .nil
  | cons length rest ih => exact .cons (each length) ih

private theorem struct_misread (children : List (FieldOf DataType)) (length : Nat)
    (rest : List Nat) (index : Nat) (past : length ≤ index) (inside : index < (length :: rest).sum) :
    ∃ data, ColumnOf (.struct children) (length :: rest) data ∧
      ¬ReadsAsOwned typeMap (.struct children) data index := by
  refine ⟨presentBatch children length :: rest.map (blankBatch (.struct children)),
    .cons ⟨rfl, batchOf_presentBatch children length⟩ (forall₂_map_self _ rest fun other =>
      ⟨length_blankBatch _ other, batchOf_blankBatch other _⟩), fun reads => ?_⟩
  have sums : (lengths (rest.map (blankBatch (.struct children)))) = rest := by
    rw [lengths, List.map_map]
    exact (List.map_congr_left fun other _ => length_blankBatch _ other).trans (List.map_id _)
  obtain ⟨chunk, row, owned, held, bound⟩ := owner_later (presentBatch children length)
    (rest.map (blankBatch (.struct children))) index past (by
      rw [lengths, List.map_cons, ← lengths, sums]
      exact inside)
  obtain ⟨other, _, rfl⟩ := List.mem_map.mp held
  have same := (reads _ row owned).1
  rw [length_blankBatch] at bound
  -- The first batch answers with a struct, the batch of the row with null.
  rw [readCanonicalValue, readCanonicalValue] at same
  simp only [childData, List.head?_cons, Option.bind_some, presentBatch, blankBatch,
    isNullAt_nullBatch other _ row bound] at same
  simp only [nullBatch, isNullAt, if_true] at same
  cases members : readMembers typeMap children (blankBatches children length) 0 index with
  | error failure =>
      rw [members] at same
      cases same
  | ok values =>
      rw [members] at same
      cases same

private theorem union_misread (mode : UnionMode) (typeIds : List Int)
    (children : List (FieldOf DataType)) (code : Int) (allowed : Allows typeIds code) (member : Nat)
    (selected : childIndex typeMap typeIds code = member) (within : member < children.length)
    (length : Nat) (rest : List Nat) (index : Nat) (past : length ≤ index)
    (inside : index < (length :: rest).sum) :
    ∃ data, ColumnOf (.union mode typeIds children) (length :: rest) data ∧
      ¬ReadsAsOwned typeMap (.union mode typeIds children) data index := by
  let make (rows : Nat) : Chunk := unionBatch mode code rows (blankBatches children rows)
  refine ⟨make length :: rest.map make, forall₂_map_self make (length :: rest) fun other =>
    ⟨rfl, batchOf_unionBatch mode typeIds code allowed children other _
      (eachBatchOf_blankBatches other children)⟩, fun reads => ?_⟩
  have sums : lengths (rest.map make) = rest := by
    rw [lengths, List.map_map]
    exact List.map_id _
  obtain ⟨chunk, row, owned, held, bound⟩ := owner_later (make length) (rest.map make) index past (by
    rw [lengths, List.map_cons, ← lengths, sums]
    exact inside)
  obtain ⟨other, _, rfl⟩ := List.mem_map.mp held
  have same := (reads _ row owned).1
  -- The first batch has no code for the row; the batch of the row has one.
  have noCode : (List.replicate length code)[index]? = none := by
    rw [List.getElem?_eq_none_iff, List.length_replicate]
    exact past
  have isCode : (List.replicate other code)[row]? = some code := by
    rw [List.getElem?_replicate]
    exact if_pos bound
  rw [readCanonicalValue, readCanonicalValue] at same
  simp [childData, make, unionBatch, isNullAt, typeCode, sameCode, noCode, isCode, selected] at same
  exact readMember_selected typeMap children member _ _ within same.symm

/-- A row of a column is read as the batch that holds it has it, whatever the column of that type in
batches of those lengths, exactly where it lies in the first batch or the type is not read from
buffers. -/
theorem reads_as_owned_iff (type : DataType) (lengths : List Nat) (index : Nat) :
    (∀ data, ColumnOf type lengths data → ReadsAsOwned typeMap type data index) ↔
      lengths.sum ≤ index ∨ index < lengths.headD 0 ∨ ¬ReadsBuffers typeMap type := by
  constructor
  · intro reads
    by_contra misread
    obtain ⟨inside, past, buffers⟩ : index < lengths.sum ∧ lengths.headD 0 ≤ index ∧
        ReadsBuffers typeMap type := by
      simpa only [not_or, not_le, not_lt, not_not] using misread
    cases lengths with
    | nil => cases inside
    | cons length rest =>
        cases type with
        | struct children =>
            obtain ⟨data, isColumn, wrong⟩ :=
              struct_misread typeMap children length rest index past inside
            exact wrong (reads data isColumn)
        | union mode typeIds children =>
            obtain ⟨code, allowed, member, selected, within⟩ := buffers
            obtain ⟨data, isColumn, wrong⟩ := union_misread typeMap mode typeIds children code
              allowed member selected within length rest index past inside
            exact wrong (reads data isColumn)
        | _ => exact buffers
  · intro safe data isColumn chunk row owned
    refine ⟨?_, columnIsValid_owner data index chunk row owned⟩
    have inside := owner_inside data index chunk row owned
    rw [lengths_column type lengths data isColumn] at inside
    rcases safe with beyond | first | unread
    · exact absurd inside (Nat.not_lt_of_le beyond)
    · cases isColumn with
      | nil => cases inside
      | @cons _ held _ others here _ =>
          have within : index < held.length := here.1 ▸ first
          rw [owner_first held others index within] at owned
          cases owned
          exact readCanonicalValue_first typeMap type _ others _ within
    · exact readCanonicalValue_unread typeMap type unread data
        (batchOf_column type lengths data isColumn) index chunk row owned

end

def structOfInt : DataType :=
  .struct [⟨text "a", .int 32 true, true, .empty⟩]

/-- The first batch of a column of structs, with the row `{ a: 1 }`. -/
def oneStruct : Chunk where
  length := 1
  nullCount := 0
  validity := none
  children := some [⟨1, 0, none, none, none,
    fun row => if row = 0 then .number (Number.ofNat 1) else .null⟩]
  unionRows := none
  cellAt := fun row => if row = 0 then .object [(text "a", .number (Number.ofNat 1))] else .null

/-- Its second batch, with a null row. -/
def noStruct : Chunk :=
  nullBatch 1 (some [nullBatch 1 none])

/-- The null row reads as a struct, from the buffers of the batch before. -/
theorem null_struct_misread :
    ColumnOf structOfInt [1, 1] [oneStruct, noStruct] ∧
      owner [oneStruct, noStruct] 1 = some (noStruct, 0) ∧
      readCanonicalValue (fun _ _ => none) structOfInt (.column [oneStruct, noStruct]) 1 =
        .ok (.object [(text "a", .null)]) ∧
      readCanonicalValue (fun _ _ => none) structOfInt (.column [noStruct]) 0 = .ok .null ∧
      ¬ReadsAsOwned (fun _ _ => none) structOfInt [oneStruct, noStruct] 1 := by
  have misread : readCanonicalValue (fun _ _ => none) structOfInt
      (.column [oneStruct, noStruct]) 1 = .ok (.object [(text "a", .null)]) := rfl
  have alone : readCanonicalValue (fun _ _ => none) structOfInt (.column [noStruct]) 0 =
      .ok .null := rfl
  refine ⟨.cons ⟨rfl, ?_⟩ (.cons ⟨rfl, ?_⟩ .nil), rfl, misread, alone, fun reads => ?_⟩
  · simp [structOfInt, BatchOf, EachBatchOf, oneStruct, KeepsNulls, isNullAt]
  · simp [structOfInt, BatchOf, EachBatchOf, noStruct, nullBatch, KeepsNulls]
  · have same := (reads noStruct 0 rfl).1
    rw [misread, alone] at same
    cases same

end VgiWorker.Arrow.Flechette
