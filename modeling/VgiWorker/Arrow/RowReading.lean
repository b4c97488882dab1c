import VgiWorker.Arrow.RewrittenColumns

/-!
# Rows of a batch

What the rows that a batch is iterated for hold, and when each can be read.
-/

set_option autoImplicit false

namespace VgiWorker.Arrow

open VgiWorker.Js

section

variable (dateText : Number → Text)

/-- The value of a row's member, a missing column being null. -/
def memberOf (batch : Batch) (index : Nat) (field : Field) : Except CodecError Rich :=
  match batch.getChild field.name with
  | none => .ok .null
  | some column => canonicalToRich dateText field.type (readCanonicalValue column index)

/-- The members of a row, a pair for each field. -/
def RowMembers (batch : Batch) (index : Nat) (fields : List Field)
    (values : List (Text × Rich)) : Prop :=
  List.Forall₂ (fun field value => value.1 = field.name ∧
    memberOf dateText batch index field = .ok value.2) fields values

private theorem rowEntries_cons (batch : Batch) (index : Nat) (field : Field) (rest : List Field)
    (entries : List (Text × Rich)) :
    rowEntries dateText batch index entries (field :: rest) =
      memberOf dateText batch index field >>= fun rich =>
        rowEntries dateText batch index (setEntry entries field.name rich) rest := by
  rw [rowEntries, memberOf]
  cases batch.getChild field.name with
  | none => rfl
  | some column => rfl

private theorem rowEntries_iff (batch : Batch) (index : Nat) (fields : List Field)
    (map : OrderedMap Text Rich) (result : List (Text × Rich)) :
    rowEntries dateText batch index map.entries fields = .ok result ↔
      ∃ values, RowMembers dateText batch index fields values ∧
        result = (map.setAll values).entries := by
  induction fields generalizing map with
  | nil =>
      constructor
      · intro read
        cases read
        exact ⟨[], .nil, rfl⟩
      · rintro ⟨values, related, rfl⟩
        cases related
        rfl
  | cons field rest ih =>
      rw [rowEntries_cons]
      constructor
      · intro read
        obtain ⟨rich, isMember, read⟩ := except_bind_ok _ _ _ read
        obtain ⟨values, related, same⟩ := (ih (map.set field.name rich)).mp read
        exact ⟨(field.name, rich) :: values, .cons ⟨rfl, isMember⟩ related, same⟩
      · rintro ⟨values, related, same⟩
        cases related with
        | @cons _ value _ others here later =>
            obtain ⟨named, isMember⟩ := here
            rw [isMember, except_ok_bind, ← named]
            exact (ih (map.set value.1 value.2)).mpr ⟨others, later, same⟩

theorem rowAt_iff (batch : Batch) (index : Nat) (row : List (Text × Rich)) :
    rowAt dateText batch index = .ok row ↔
      ∃ values, RowMembers dateText batch index batch.schema.fields values ∧
        row = objectOf values :=
  rowEntries_iff dateText batch index batch.schema.fields OrderedMap.empty row

theorem rowMembers_names (batch : Batch) (index : Nat) (fields : List Field)
    (values : List (Text × Rich)) (members : RowMembers dateText batch index fields values) :
    values.map Prod.fst = fields.map FieldOf.name := by
  induction members with
  | nil => rfl
  | cons here _ ih => rw [List.map_cons, List.map_cons, here.1, ih]

theorem iterRows_iff (batch : Batch) (rows : List (List (Text × Rich))) :
    iterRows dateText batch = .ok rows ↔ batch.numRows = rows.length ∧
      ∀ index row, rows[index]? = some row → rowAt dateText batch index = .ok row := by
  rw [iterRows, except_mapM_iff, List.forall₂_iff_get]
  simp only [List.length_range, List.get_eq_getElem, List.getElem_range]
  constructor
  · rintro ⟨length, each⟩
    refine ⟨length, fun index row here => ?_⟩
    obtain ⟨inside, rfl⟩ := List.getElem?_eq_some_iff.mp here
    exact each index (by rw [length]; exact inside) inside
  · rintro ⟨length, each⟩
    exact ⟨length, fun index _ inside => each index _ (List.getElem?_eq_getElem inside)⟩

theorem memberOf_canonical (batch : Batch) (canonical : Nested.HoldsCanonical batch)
    (position : Nat) (field : Field) (here : batch.schema.fields[position]? = some field)
    (column : Column) (isColumn : batch.columns[position]? = some column) (index : Nat) :
    memberOf dateText batch index field =
      canonicalToRich dateText field.type (readCanonicalValue column index) := by
  rw [memberOf, getChild_nodup batch canonical.distinct position field here, isColumn]

end

end VgiWorker.Arrow
