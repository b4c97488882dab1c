import VgiWorker.Data.Readers
import VgiWorker.FilterPushdown.WellKnownBinary

/-!
# The bounds of encoded geometries

The reader accepts exactly one geometry of the lenient dialect, with nothing behind it,
and gives the box around its coordinates.
-/

set_option autoImplicit false

namespace VgiWorker.FilterPushdown.WellKnownBinary

open VgiWorker.Js Readers WkbBoundsReader

/-! ## Numbers and words -/

private theorem readsAs_take (chunk : Bytes) : ReadsAs (take chunk.length) chunk chunk := by
  intro rest
  have enough : ¬ (chunk ++ rest).length < chunk.length := by simp
  rw [take, if_neg enough, List.take_left', List.drop_left']
  · rfl
  · rfl

private theorem sound_take (length : Nat) :
    Sound (take length) (fun chunk value => chunk.length = length ∧ value = chunk) := by
  intro input value rest read
  rw [take] at read
  split at read
  · cases read
  · cases read
    exact ⟨_, (List.take_append_drop ..).symm, List.length_take_of_le (by omega), rfl⟩

private theorem readsAs_uint32 (littleEndian : Bool) (chunk : Bytes) (length : chunk.length = 4) :
    ReadsAs (uint32 littleEndian) chunk (unsigned littleEndian chunk) := by
  intro rest
  rw [uint32, ← length]
  exact bind_of_ok _ _ _ _ _ (readsAs_take chunk rest)

private theorem sound_uint32 (littleEndian : Bool) :
    Sound (uint32 littleEndian)
      (fun chunk value => chunk.length = 4 ∧ value = unsigned littleEndian chunk) := by
  intro input value rest read
  obtain ⟨taken, middle, took, read⟩ := (bind_ok_iff _ _ _ _ _).mp read
  cases read
  obtain ⟨chunk, split, length, rfl⟩ := sound_take 4 input taken _ took
  exact ⟨taken, split, length, rfl⟩

private theorem readsAs_float64 (littleEndian : Bool) (chunk : Bytes) (length : chunk.length = 8) :
    ReadsAs (float64 littleEndian) chunk (.ofBits (unsigned littleEndian chunk)) := by
  intro rest
  rw [float64, ← length]
  exact bind_of_ok _ _ _ _ _ (readsAs_take chunk rest)

private theorem sound_float64 (littleEndian : Bool) :
    Sound (float64 littleEndian)
      (fun chunk value => chunk.length = 8 ∧ value = .ofBits (unsigned littleEndian chunk)) := by
  intro input value rest read
  obtain ⟨taken, middle, took, read⟩ := (bind_ok_iff _ _ _ _ _).mp read
  cases read
  obtain ⟨chunk, split, length, rfl⟩ := sound_take 8 input taken _ took
  exact ⟨taken, split, length, rfl⟩

/-! ## The box -/

private theorem isBox_single (x y : Number) (xValue yValue : ℚ) (xEq : x.toRat? = some xValue)
    (yEq : y.toRat? = some yValue) : IsBox [(x, y)] (some ⟨x, y, x, y⟩) := by
  have only (side : Number × Number → Number) (value : ℚ)
      (held : (side (x, y)).toRat? = some value) :
      ordinates side [(x, y)] = {value} := by
    ext other
    simp [ordinates, held, eq_comm]
  refine ⟨xValue, yValue, xValue, yValue, xEq, yEq, xEq, yEq, ?_, ?_, ?_, ?_⟩
  · rw [only Prod.fst xValue xEq]
    exact isLeast_singleton
  · rw [only Prod.snd yValue yEq]
    exact isLeast_singleton
  · rw [only Prod.fst xValue xEq]
    exact isGreatest_singleton
  · rw [only Prod.snd yValue yEq]
    exact isGreatest_singleton

private theorem toRat?_mathMin (left right : Number) (leftValue rightValue : ℚ)
    (leftEq : left.toRat? = some leftValue) (rightEq : right.toRat? = some rightValue) :
    (left.mathMin right).toRat? = some (min leftValue rightValue) := by
  have notNan : (left.isNaN || right.isNaN) = false := by
    cases left <;> cases right <;> cases leftEq <;> cases rightEq <;> rfl
  rw [Number.mathMin, notNan, if_neg (by decide), Number.less_eq right left _ _ rightEq leftEq,
    Number.less_eq left right _ _ leftEq rightEq]
  split
  · rename_i chosen
    have below : rightValue ≤ leftValue := by
      rcases (Bool.or_eq_true ..).mp chosen with less | zero
      · exact le_of_lt (of_decide_eq_true less)
      · obtain ⟨isZero, notLess⟩ := (Bool.and_eq_true ..).mp zero
        simpa using notLess
    rw [rightEq, min_eq_right below]
  · rename_i kept
    have above : leftValue ≤ rightValue := by
      by_contra below
      exact kept (Bool.or_eq_true_iff.mpr (.inl (decide_eq_true (not_le.mp below))))
    rw [leftEq, min_eq_left above]

private theorem toRat?_mathMax (left right : Number) (leftValue rightValue : ℚ)
    (leftEq : left.toRat? = some leftValue) (rightEq : right.toRat? = some rightValue) :
    (left.mathMax right).toRat? = some (max leftValue rightValue) := by
  have notNan : (left.isNaN || right.isNaN) = false := by
    cases left <;> cases right <;> cases leftEq <;> cases rightEq <;> rfl
  rw [Number.mathMax, notNan, if_neg (by decide), Number.less_eq right left _ _ rightEq leftEq,
    Number.less_eq left right _ _ leftEq rightEq]
  split
  · rename_i chosen
    have above : leftValue ≤ rightValue := by
      rcases (Bool.or_eq_true ..).mp chosen with less | zero
      · exact le_of_lt (of_decide_eq_true less)
      · obtain ⟨isZero, notLess⟩ := (Bool.and_eq_true ..).mp zero
        simpa using notLess
    rw [rightEq, max_eq_right above]
  · rename_i kept
    have below : rightValue ≤ leftValue := by
      by_contra above
      exact kept (Bool.or_eq_true_iff.mpr (.inl (decide_eq_true (not_le.mp above))))
    rw [leftEq, max_eq_left below]

private theorem ordinates_append (side : Number × Number → Number) (left right : Coordinates) :
    ordinates side (left ++ right) = ordinates side left ∪ ordinates side right := by
  ext value
  simp [ordinates, or_and_right, exists_or]

private theorem isBox_merge (left right : Coordinates) (leftBox rightBox : Option Bounds)
    (isLeft : IsBox left leftBox) (isRight : IsBox right rightBox) :
    IsBox (left ++ right) (merge leftBox rightBox) := by
  cases leftBox with
  | none =>
      have empty : left = [] := isLeft
      subst empty
      exact isRight
  | some leftBox =>
      cases rightBox with
      | none =>
          have empty : right = [] := isRight
          subst empty
          rw [List.append_nil]
          exact isLeft
      | some rightBox =>
          obtain ⟨_, _, _, _, minX, minY, maxX, maxY, leastX, leastY, mostX, mostY⟩ := isLeft
          obtain ⟨_, _, _, _, minX', minY', maxX', maxY', leastX', leastY', mostX', mostY'⟩ :=
            isRight
          refine ⟨_, _, _, _, toRat?_mathMin _ _ _ _ minX minX', toRat?_mathMin _ _ _ _ minY minY',
            toRat?_mathMax _ _ _ _ maxX maxX', toRat?_mathMax _ _ _ _ maxY maxY', ?_, ?_, ?_, ?_⟩
          · rw [ordinates_append]
            exact leastX.union leastX'
          · rw [ordinates_append]
            exact leastY.union leastY'
          · rw [ordinates_append]
            exact mostX.union mostX'
          · rw [ordinates_append]
            exact mostY.union mostY'

/-! ## Positions -/

/-- The ordinates past y are read and dropped. -/
private def others (littleEndian : Bool) (dimensions : List Nat) : Reader PUnit :=
  forIn dimensions PUnit.unit fun _ _ => do
    let _ ← float64 littleEndian
    pure (.yield PUnit.unit)

private theorem others_cons (littleEndian : Bool) (dimension : Nat) (rest : List Nat) :
    others littleEndian (dimension :: rest) =
      float64 littleEndian >>= fun _ => others littleEndian rest := by
  simp only [others, List.forIn_cons, bind_assoc, pure_bind]

private theorem readsAs_others (littleEndian : Bool) (dimensions : List Nat) (chunk : Bytes)
    (length : chunk.length = 8 * dimensions.length) :
    ReadsAs (others littleEndian dimensions) chunk PUnit.unit := by
  induction dimensions generalizing chunk with
  | nil =>
      have empty : chunk = [] := List.length_eq_zero_iff.mp length
      subst empty
      exact readsAs_pure PUnit.unit
  | cons dimension rest ih =>
      rw [List.length_cons] at length
      rw [others_cons, ← List.take_append_drop 8 chunk]
      refine readsAs_bind _ _ _ _ _ _ (readsAs_float64 littleEndian _ ?_) (ih _ ?_)
      · rw [List.length_take]
        omega
      · rw [List.length_drop]
        omega

private theorem sound_others (littleEndian : Bool) (dimensions : List Nat) :
    Sound (others littleEndian dimensions)
      (fun chunk _ => chunk.length = 8 * dimensions.length) := by
  induction dimensions with
  | nil => exact sound_mono _ _ _ (sound_pure PUnit.unit) fun chunk _ empty => by simp [empty.1]
  | cons dimension rest ih =>
      rw [others_cons]
      refine sound_mono _ _ _ (sound_bind _ _ _ _ (sound_float64 littleEndian) fun _ => ih) ?_
      rintro chunk _ ⟨front, back, _, rfl, ⟨frontLength, _⟩, backLength⟩
      rw [List.length_append, List.length_cons, frontLength, backLength]
      omega

private theorem finite_toRat? (number : Number) (isFinite : number.isFinite = true) :
    ∃ value, number.toRat? = some value ∧ number.isNaN = false := by
  cases number with
  | nan => cases isFinite
  | infinity negative => cases isFinite
  | negativeZero => exact ⟨0, rfl, rfl⟩
  | finite held => exact ⟨held.val, rfl, rfl⟩

/-- The box of a position, which an empty one has not. -/
private def boxOf (x y : Number) : Option Bounds :=
  if x.isNaN && y.isNaN then none else some ⟨x, y, x, y⟩

private theorem isBox_position (x y : Number) (allowed : lenient.position x y) :
    IsBox (coordinatesOf x y) (boxOf x y) := by
  rcases allowed with ⟨xNan, yNan⟩ | ⟨xFinite, yFinite⟩
  · simp [coordinatesOf, boxOf, xNan, yNan, IsBox]
  · obtain ⟨xValue, xEq, xNan⟩ := finite_toRat? x xFinite
    obtain ⟨yValue, yEq, _⟩ := finite_toRat? y yFinite
    rw [coordinatesOf, boxOf, xNan, Bool.false_and, if_neg (by decide), if_neg (by decide)]
    exact isBox_single x y xValue yValue xEq yEq

/-- The check of the coordinates, as a reader that reads nothing. -/
private def checked (x y : Number) : Reader (Option Bounds) := do
  if x.isNaN && y.isNaN then return none
  if !x.isFinite || !y.isFinite then fail "WKB coordinate must be finite"
  return some ⟨x, y, x, y⟩

private theorem checked_ok_iff (x y : Number) (input rest : Bytes) (bounds : Option Bounds) :
    checked x y input = .ok (bounds, rest) ↔
      lenient.position x y ∧ input = rest ∧ bounds = boxOf x y := by
  have position : lenient.position x y ↔
      (x.isNaN && y.isNaN) = true ∨ (!x.isFinite || !y.isFinite) = false := by
    simp [lenient]
  rw [position]
  unfold checked boxOf
  cases (x.isNaN && y.isNaN) with
  | true =>
      constructor
      · intro read
        cases read
        exact ⟨.inl rfl, rfl, rfl⟩
      · rintro ⟨_, rfl, rfl⟩
        rfl
  | false =>
      cases (!x.isFinite || !y.isFinite) with
      | true => exact ⟨nofun, fun given => by simp at given⟩
      | false =>
          constructor
          · intro read
            cases read
            exact ⟨.inr rfl, rfl, rfl⟩
          · rintro ⟨_, rfl, rfl⟩
            rfl

private theorem point_eq (littleEndian : Bool) (dimensions : Nat) :
    point littleEndian dimensions = (do
      let x ← float64 littleEndian
      let y ← float64 littleEndian
      others littleEndian (List.range (dimensions - 2))
      checked x y) := rfl

private theorem readsAs_point (header : Header) (chunk : Bytes) (coordinates : Coordinates)
    (position : Position lenient header chunk coordinates) :
    ∃ bounds, ReadsAs (point header.littleEndian header.dimensions) chunk bounds ∧
      IsBox coordinates bounds := by
  obtain ⟨x, y, more, rfl, xLength, yLength, moreLength, allowed, rfl⟩ := position
  refine ⟨_, ?_, isBox_position _ _ allowed⟩
  rw [point_eq, List.append_assoc, ← List.append_nil more]
  refine readsAs_bind _ _ _ _ _ _ (readsAs_float64 _ x xLength) ?_
  refine readsAs_bind _ _ _ _ _ _ (readsAs_float64 _ y yLength) ?_
  rw [← List.length_range (n := header.dimensions - 2)] at moreLength
  refine readsAs_bind _ _ _ _ _ _ (readsAs_others _ _ more moreLength) ?_
  exact fun rest => (checked_ok_iff _ _ _ _ _).mpr ⟨allowed, rfl, rfl⟩

private def Holds (language : Bytes → Coordinates → Prop) (chunk : Bytes) (bounds : Option Bounds) :
    Prop :=
  ∃ coordinates, language chunk coordinates ∧ IsBox coordinates bounds

private theorem sound_point (header : Header) :
    Sound (point header.littleEndian header.dimensions) (Holds (Position lenient header)) := by
  intro input bounds rest read
  rw [point_eq] at read
  obtain ⟨_, afterX, readX, readRest⟩ := (bind_ok_iff _ _ _ _ _).mp read
  obtain ⟨_, afterY, readY, readMore⟩ := (bind_ok_iff _ _ _ _ _).mp readRest
  obtain ⟨_, afterOthers, readOthers, readChecked⟩ := (bind_ok_iff _ _ _ _ _).mp readMore
  obtain ⟨x, rfl, xLength, rfl⟩ := sound_float64 _ _ _ _ readX
  obtain ⟨y, rfl, yLength, rfl⟩ := sound_float64 _ _ _ _ readY
  obtain ⟨more, rfl, moreLength⟩ := sound_others _ _ _ _ _ readOthers
  obtain ⟨allowed, rfl, rfl⟩ := (checked_ok_iff _ _ _ _ _).mp readChecked
  rw [List.length_range] at moreLength
  refine ⟨x ++ y ++ more, by simp only [List.append_assoc], _,
    ⟨x, y, more, rfl, xLength, yLength, moreLength, allowed, rfl⟩, isBox_position _ _ allowed⟩

/-! ## Repeated parts -/

private theorem readsAs_mergeTimes (step : Reader (Option Bounds))
    (parts : List (Bytes × Coordinates))
    (each : ∀ part ∈ parts, ∃ bounds, ReadsAs step part.1 bounds ∧ IsBox part.2 bounds)
    (prior : Coordinates) (box : Option Bounds) (isBox : IsBox prior box) :
    ∃ bounds, ReadsAs (mergeTimes step parts.length box) (parts.map Prod.fst).flatten bounds ∧
      IsBox (prior ++ (parts.map Prod.snd).flatten) bounds := by
  induction parts generalizing prior box with
  | nil => exact ⟨box, readsAs_pure box, by simpa using isBox⟩
  | cons part rest ih =>
      obtain ⟨here, reads, isHere⟩ := each part List.mem_cons_self
      obtain ⟨bounds, readsRest, isRest⟩ :=
        ih (fun other member => each other (List.mem_cons_of_mem _ member)) (prior ++ part.2) _
          (isBox_merge prior part.2 box here isBox isHere)
      refine ⟨bounds, ?_, ?_⟩
      · rw [List.map_cons, List.flatten_cons]
        exact readsAs_bind _ _ _ _ _ _ reads readsRest
      · rw [List.map_cons, List.flatten_cons, ← List.append_assoc]
        exact isRest

private theorem sound_mergeTimes (step : Reader (Option Bounds))
    (language : Bytes → Coordinates → Prop) (sound : Sound step (Holds language)) (count : Nat)
    (box : Option Bounds) :
    Sound (mergeTimes step count box) (fun chunk bounds => ∃ parts : List (Bytes × Coordinates),
      parts.length = count ∧ (∀ part ∈ parts, language part.1 part.2) ∧
        chunk = (parts.map Prod.fst).flatten ∧
        ∀ prior, IsBox prior box → IsBox (prior ++ (parts.map Prod.snd).flatten) bounds) := by
  induction count generalizing box with
  | zero =>
      refine sound_mono _ _ _ (sound_pure box) ?_
      rintro chunk _ ⟨rfl, rfl⟩
      exact ⟨[], rfl, nofun, rfl, fun prior isBox => by simpa using isBox⟩
  | succ count ih =>
      refine sound_mono _ _ _ (sound_bind _ _ _ _ sound fun here => ih (merge box here)) ?_
      rintro chunk bounds ⟨front, back, here, rfl, ⟨coordinates, holds, isHere⟩, parts, rfl, each,
        rfl, isRest⟩
      refine ⟨(front, coordinates) :: parts, rfl, ?_, rfl, fun prior isBox => ?_⟩
      · rintro part member
        rcases List.mem_cons.mp member with rfl | member
        · exact holds
        · exact each part member
      · rw [List.map_cons, List.flatten_cons, ← List.append_assoc]
        exact isRest _ (isBox_merge prior coordinates box here isBox isHere)

/-- The check of a number of parts against the payload, as a reader that reads nothing. -/
private def bounded (number : Nat) : Reader Nat := do
  if (← get).length / 4 < number then fail "WKB element count exceeds payload size"
  return number

private theorem bounded_eq (number : Nat) (input : Bytes) :
    bounded number input =
      if input.length / 4 < number then throwV2 (text "WKB element count exceeds payload size")
      else .ok (number, input) := by
  change (if input.length / 4 < number then (_ : Reader Nat) else _) input = _
  split
  · rfl
  · rfl

private theorem count_eq (littleEndian : Bool) :
    count littleEndian = uint32 littleEndian >>= bounded := rfl

private theorem count_of_enough (littleEndian : Bool) (chunk rest : Bytes)
    (length : chunk.length = 4) (enough : 4 * unsigned littleEndian chunk ≤ rest.length) :
    count littleEndian (chunk ++ rest) = .ok (unsigned littleEndian chunk, rest) := by
  have within : ¬ rest.length / 4 < unsigned littleEndian chunk := by omega
  rw [count_eq, bind_of_ok _ _ _ _ _ (readsAs_uint32 littleEndian chunk length rest), bounded_eq,
    if_neg within]

private theorem sound_count (littleEndian : Bool) :
    Sound (count littleEndian)
      (fun chunk value => chunk.length = 4 ∧ value = unsigned littleEndian chunk) := by
  intro input value rest read
  rw [count_eq] at read
  obtain ⟨number, middle, readNumber, readRest⟩ := (bind_ok_iff _ _ _ _ _).mp read
  rw [bounded_eq] at readRest
  split at readRest
  · cases readRest
  · cases readRest
    exact sound_uint32 littleEndian input value rest readNumber

private def counted (littleEndian : Bool) (step : Reader (Option Bounds)) :
    Reader (Option Bounds) := do
  let length ← count littleEndian
  mergeTimes step length none

private theorem readsAs_counted (header : Header) (step : Reader (Option Bounds))
    (parts : List (Bytes × Coordinates)) (chunk : Bytes) (isCounted : Counted header parts chunk)
    (each : ∀ part ∈ parts, ∃ bounds, ReadsAs step part.1 bounds ∧ IsBox part.2 bounds)
    (least : ∀ part ∈ parts, 4 ≤ part.1.length) :
    ∃ bounds, ReadsAs (counted header.littleEndian step) chunk bounds ∧
      IsBox (parts.map Prod.snd).flatten bounds := by
  obtain ⟨number, length, isNumber, rfl⟩ := isCounted
  obtain ⟨bounds, reads, isBox⟩ := readsAs_mergeTimes step parts each [] none rfl
  have long : 4 * parts.length ≤ (parts.map Prod.fst).flatten.length := by
    clear each isNumber reads isBox
    induction parts with
    | nil => simp
    | cons part rest ih =>
        have here := least part List.mem_cons_self
        have later := ih fun other member => least other (List.mem_cons_of_mem _ member)
        rw [List.map_cons, List.flatten_cons, List.length_append, List.length_cons]
        omega
  refine ⟨bounds, fun rest => ?_, isBox⟩
  rw [counted, List.append_assoc,
    bind_of_ok _ _ _ _ _ (count_of_enough header.littleEndian number _ length ?_), isNumber]
  · exact reads rest
  · rw [isNumber, List.length_append]
    omega

private theorem sound_counted (header : Header) (step : Reader (Option Bounds))
    (language : Bytes → Coordinates → Prop) (sound : Sound step (Holds language)) :
    Sound (counted header.littleEndian step) (Holds (Sequence header language)) := by
  refine sound_mono _ _ _ (sound_bind _ _ _ _ (sound_count header.littleEndian)
    fun length => sound_mergeTimes step language sound length none) ?_
  rintro chunk bounds ⟨number, back, _, rfl, ⟨length, rfl⟩, parts, isNumber, each, rfl, isBox⟩
  exact ⟨_, ⟨parts, each, ⟨number, length, isNumber.symm, rfl⟩, rfl⟩, isBox [] rfl⟩

private theorem length_position (header : Header) (chunk : Bytes) (coordinates : Coordinates)
    (position : Position lenient header chunk coordinates) : 4 ≤ chunk.length := by
  obtain ⟨x, y, more, rfl, xLength, _⟩ := position
  simp only [List.length_append]
  omega

private theorem length_sequence (header : Header) (item : Bytes → Coordinates → Prop)
    (chunk : Bytes) (coordinates : Coordinates)
    (isSequence : Sequence header item chunk coordinates) : 4 ≤ chunk.length := by
  obtain ⟨parts, _, ⟨number, length, _, rfl⟩, _⟩ := isSequence
  rw [List.length_append]
  omega

private theorem readsAs_sequence (header : Header) (step : Reader (Option Bounds))
    (item : Bytes → Coordinates → Prop)
    (reads : ∀ chunk coordinates, item chunk coordinates →
      ∃ bounds, ReadsAs step chunk bounds ∧ IsBox coordinates bounds)
    (least : ∀ chunk coordinates, item chunk coordinates → 4 ≤ chunk.length) (chunk : Bytes)
    (coordinates : Coordinates) (isSequence : Sequence header item chunk coordinates) :
    ∃ bounds, ReadsAs (counted header.littleEndian step) chunk bounds ∧
      IsBox coordinates bounds := by
  obtain ⟨parts, each, isCounted, rfl⟩ := isSequence
  exact readsAs_counted header step parts chunk isCounted
    (fun part member => reads _ _ (each part member))
    (fun part member => least _ _ (each part member))

/-! ## Headers -/

private theorem geometryType_typeWord (header : Header) (kind : Nat) (greatest : kind ≤ 7) :
    geometryType (header.typeWord kind) = (kind, header.dimensions) ∧
      (header.typeWord kind / 2 ^ 29 % 2 = 1 ↔ header.hasSrid = true) := by
  obtain ⟨littleEndian, hasZ, hasM, hasSrid, unassigned, thousands, thousands_lt⟩ := header
  have low : (Header.mk littleEndian hasZ hasM hasSrid unassigned thousands thousands_lt).typeWord
      kind % 2 ^ 28 = kind + 1000 * thousands := by
    simp only [Header.typeWord]
    omega
  have bits : (Header.mk littleEndian hasZ hasM hasSrid unassigned thousands thousands_lt).typeWord
        kind / 2 ^ 31 % 2 = hasZ.toNat ∧
      (Header.mk littleEndian hasZ hasM hasSrid unassigned thousands thousands_lt).typeWord
        kind / 2 ^ 30 % 2 = hasM.toNat ∧
      (Header.mk littleEndian hasZ hasM hasSrid unassigned thousands thousands_lt).typeWord
        kind / 2 ^ 29 % 2 = hasSrid.toNat := by
    simp only [Header.typeWord]
    cases hasZ <;> cases hasM <;> cases hasSrid <;> cases unassigned <;>
      simp only [Bool.toNat_true, Bool.toNat_false] <;> omega
  obtain ⟨isZ, isM, isSrid⟩ := bits
  refine ⟨?_, ?_⟩
  · rw [geometryType]
    simp only [low, isZ, isM]
    rcases thousands with _ | _ | _ | _ | thousands
    · rw [if_neg (by omega), if_neg (by omega), if_neg (by omega)]
      rfl
    · rw [if_neg (by omega), if_neg (by omega), if_pos (by omega)]
      simp [Header.dimensions]
    · rw [if_neg (by omega), if_pos (by omega)]
      simp [Header.dimensions]
    · rw [if_pos (by omega)]
      simp [Header.dimensions]
    · omega
  · rw [isSrid]
    cases hasSrid with
    | false => exact ⟨nofun, nofun⟩
    | true => exact ⟨fun _ => rfl, fun _ => rfl⟩

private theorem thousands_geometryType (word : Nat) :
    ∃ thousands < 4, (geometryType word).1 + 1000 * thousands = word % 2 ^ 28 := by
  rw [geometryType]
  dsimp only
  split
  · exact ⟨3, by omega, by dsimp only; omega⟩
  · split
    · exact ⟨2, by omega, by dsimp only; omega⟩
    · split
      · exact ⟨1, by omega, by dsimp only; omega⟩
      · exact ⟨0, by omega, rfl⟩

private theorem flag_toNat (word bit : Nat) :
    (decide (word / 2 ^ bit % 2 = 1)).toNat = word / 2 ^ bit % 2 := by
  rcases Nat.mod_two_eq_zero_or_one (word / 2 ^ bit) with zero | one
  · rw [zero]
    rfl
  · rw [one]
    rfl

private theorem typeWord_geometryType (littleEndian : Bool) (word : Nat) (bound : word < 2 ^ 32) :
    ∃ header : Header, header.littleEndian = littleEndian ∧
      header.typeWord (geometryType word).1 = word := by
  obtain ⟨thousands, below, low⟩ := thousands_geometryType word
  refine ⟨⟨littleEndian, decide (word / 2 ^ 31 % 2 = 1), decide (word / 2 ^ 30 % 2 = 1),
    decide (word / 2 ^ 29 % 2 = 1), decide (word / 2 ^ 28 % 2 = 1), thousands, below⟩, rfl, ?_⟩
  simp only [Header.typeWord, flag_toNat, low]
  omega

private theorem foldl_lt (bytes : Bytes) (start : Nat) :
    bytes.foldl (fun value byte => value * 256 + byte.toNat) start <
      (start + 1) * 256 ^ bytes.length := by
  induction bytes generalizing start with
  | nil => simp
  | cons byte rest ih =>
      have low := byte.toNat_lt
      refine lt_of_lt_of_le (ih _) ?_
      rw [List.length_cons, Nat.pow_succ', ← Nat.mul_assoc]
      exact Nat.mul_le_mul_right _ (by dsimp only; omega)

private theorem unsigned_lt (littleEndian : Bool) (bytes : Bytes) :
    unsigned littleEndian bytes < 256 ^ bytes.length := by
  have bound (ordered : Bytes) : ordered.foldl (fun value byte => value * 256 + byte.toNat) 0 <
      256 ^ ordered.length := by
    simpa using foldl_lt ordered 0
  cases littleEndian with
  | false => exact bound bytes
  | true =>
      have reversed := bound bytes.reverse
      rw [List.length_reverse] at reversed
      exact reversed

/-- The reader of what stands before the content of a geometry. -/
private def introduction : Reader (Bool × Nat × Nat) := do
  let byteOrder := unsigned true (← take 1)
  if byteOrder ≠ 0 ∧ byteOrder ≠ 1 then fail "invalid WKB byte order"
  let littleEndian := byteOrder == 1
  let encodedType ← uint32 littleEndian
  if encodedType / 2 ^ 29 % 2 = 1 then
    let _ ← uint32 littleEndian
  return (littleEndian, geometryType encodedType)

/-- The reader of the content of a geometry. -/
private def content (levels : Nat) (littleEndian : Bool) (type dimensions : Nat) :
    Reader (Option Bounds) :=
  if type = 1 then point littleEndian dimensions
  else if type = 2 then points littleEndian dimensions
  else if type = 3 then counted littleEndian (points littleEndian dimensions)
  else if 4 ≤ type ∧ type ≤ 7 then counted littleEndian (geometry levels)
  else fun _ => throwV2 (text "unsupported WKB geometry type " ++ Number.decimal type)

private theorem geometry_succ (levels : Nat) :
    geometry (levels + 1) =
      introduction >>= fun header => content levels header.1 header.2.1 header.2.2 := by
  simp only [geometry, introduction, bind_assoc]
  congr 1
  funext order
  split
  · rfl
  · simp only [bind_assoc]
    congr 1
    funext word
    split
    · simp only [bind_assoc, pure_bind]
      rfl
    · rfl

private def optional (littleEndian : Bool) (word : Nat) : Reader (Bool × Nat × Nat) := do
  if word / 2 ^ 29 % 2 = 1 then
    let _ ← uint32 littleEndian
  return (littleEndian, geometryType word)

private def flaggedLength (word : Nat) : Nat :=
  if word / 2 ^ 29 % 2 = 1 then 4 else 0

private theorem readsAs_optional (littleEndian : Bool) (word : Nat) (srid : Bytes)
    (length : srid.length = flaggedLength word) :
    ReadsAs (optional littleEndian word) srid (littleEndian, geometryType word) := by
  unfold flaggedLength at length
  unfold optional
  split
  · rename_i present
    rw [if_pos present] at length
    rw [← List.append_nil srid]
    exact readsAs_bind _ _ _ _ _ _ (readsAs_uint32 littleEndian srid length) (readsAs_pure _)
  · rename_i absent
    rw [if_neg absent] at length
    have empty : srid = [] := List.length_eq_zero_iff.mp length
    subst empty
    exact readsAs_pure _

private theorem sound_optional (littleEndian : Bool) (word : Nat) :
    Sound (optional littleEndian word) (fun srid read =>
      srid.length = flaggedLength word ∧ read = (littleEndian, geometryType word)) := by
  unfold flaggedLength
  unfold optional
  split
  · refine sound_mono _ _ _ (sound_bind _ _ _ _ (sound_uint32 littleEndian)
      fun _ => sound_pure _) ?_
    rintro chunk read ⟨front, back, _, rfl, ⟨length, _⟩, rfl, rfl⟩
    exact ⟨by rw [List.append_nil, length], rfl⟩
  · refine sound_mono _ _ _ (sound_pure _) ?_
    rintro chunk read ⟨rfl, rfl⟩
    exact ⟨rfl, rfl⟩

private theorem introduction_eq :
    introduction = take 1 >>= fun order =>
      if unsigned true order ≠ 0 ∧ unsigned true order ≠ 1 then
        (fail "invalid WKB byte order" : Reader PUnit) >>= fun _ =>
          uint32 (unsigned true order == 1) >>= optional (unsigned true order == 1)
      else uint32 (unsigned true order == 1) >>= optional (unsigned true order == 1) := rfl

private theorem readsAs_introduction (header : Header) (kind : Nat) (chunk : Bytes)
    (greatest : kind ≤ 7) (introduces : Introduces header kind chunk) :
    ReadsAs introduction chunk (header.littleEndian, kind, header.dimensions) := by
  obtain ⟨word, srid, rfl, length, isWord, sridLength⟩ := introduces
  obtain ⟨isType, isSrid⟩ := geometryType_typeWord header kind greatest
  have flagged : srid.length = flaggedLength (unsigned header.littleEndian word) := by
    rw [sridLength, Header.sridLength, flaggedLength, isWord]
    exact if_congr isSrid.symm rfl rfl
  have reads := readsAs_bind _ _ _ _ _ _ (readsAs_uint32 header.littleEndian word length)
    (readsAs_optional header.littleEndian _ srid flagged)
  rw [isWord, isType] at reads
  rw [introduction_eq, List.cons_append, ← List.singleton_append]
  refine readsAs_bind _ _ _ _ _ _ (readsAs_take [_]) ?_
  cases little : header.littleEndian with
  | false =>
      rw [little] at reads
      rw [if_neg (by decide)]
      exact reads
  | true =>
      rw [little] at reads
      rw [if_neg (by decide)]
      exact reads

private theorem byteOrder_eq (byte : UInt8)
    (known : ¬ (unsigned true [byte] ≠ 0 ∧ unsigned true [byte] ≠ 1)) :
    byte = if unsigned true [byte] == 1 then 1 else 0 := by
  have value : unsigned true [byte] = byte.toNat := Nat.zero_add _
  rw [value] at known ⊢
  by_cases one : byte.toNat = 1
  · have isOne : byte = 1 := UInt8.toNat.inj one
    subst isOne
    rfl
  · have isZero : byte = 0 := UInt8.toNat.inj (by
      change byte.toNat = 0
      omega)
    subst isZero
    rfl

private theorem sound_introduction :
    Sound introduction (fun chunk read => 1 ≤ chunk.length ∧ (read.2.1 ≤ 7 → ∃ header : Header,
      Introduces header read.2.1 chunk ∧
        read = (header.littleEndian, read.2.1, header.dimensions))) := by
  intro input read rest success
  rw [introduction_eq] at success
  obtain ⟨order, middle, readOrder, readRest⟩ := (bind_ok_iff _ _ _ _ _).mp success
  obtain ⟨_, rfl, orderLength, rfl⟩ := sound_take 1 _ _ _ readOrder
  obtain ⟨byte, rfl⟩ := List.length_eq_one_iff.mp orderLength
  split at readRest
  · cases readRest
  · rename_i known
    obtain ⟨chunk, rfl, word, srid, _, rfl, ⟨length, rfl⟩, sridLength, rfl⟩ :=
      sound_bind _ _ _ _ (sound_uint32 _) (fun _ => sound_optional _ _) _ _ _ readRest
    refine ⟨byte :: (word ++ srid), rfl, Nat.le_add_left .., fun greatest => ?_⟩
    have bound := unsigned_lt (unsigned true [byte] == 1) word
    rw [length] at bound
    obtain ⟨header, little, isWord⟩ := typeWord_geometryType (unsigned true [byte] == 1) _ bound
    obtain ⟨isType, isSrid⟩ := geometryType_typeWord header _ greatest
    refine ⟨header, ⟨word, srid, ?_, length, ?_, ?_⟩, ?_⟩
    · rw [little, List.cons_append, ← byteOrder_eq byte known]
    · rw [little]
      exact isWord.symm
    · rw [sridLength, Header.sridLength, flaggedLength, ← isWord]
      exact if_congr isSrid rfl rfl
    · rw [isWord] at isType
      rw [little, ← isType]

/-! ## Geometries -/

private theorem length_geometry (kind : Nat) (chunk : Bytes) (coordinates : Coordinates)
    (isGeometry : Geometry lenient kind chunk coordinates) : 4 ≤ chunk.length ∧ kind ≤ 7 := by
  have long (header : Header) (base : Nat) (before content : Bytes)
      (introduces : Introduces header base before) : 4 ≤ (before ++ content).length := by
    obtain ⟨word, srid, rfl, length, _⟩ := introduces
    rw [List.cons_append, List.cons_append, List.length_cons, List.length_append,
      List.length_append]
    omega
  cases isGeometry with
  | point header before content _ _ introduces =>
      exact ⟨long header 1 before content introduces, by decide⟩
  | lineString header before content _ _ introduces =>
      exact ⟨long header 2 before content introduces, by decide⟩
  | polygon header before content _ _ introduces =>
      exact ⟨long header 3 before content introduces, by decide⟩
  | collection _ header before content members _ greatest _ introduces =>
      exact ⟨long header kind before content introduces, greatest⟩

private theorem length_lt (header : Header) (kind : Nat) (before : Bytes)
    (introduces : Introduces header kind before) : 0 < before.length := by
  obtain ⟨word, srid, rfl, _⟩ := introduces
  exact Nat.zero_lt_succ _

private theorem length_le_counted (header : Header) (parts : List (Bytes × Coordinates))
    (chunk : Bytes) (isCounted : Counted header parts chunk) (part : Bytes × Coordinates)
    (member : part ∈ parts) : part.1.length ≤ chunk.length := by
  obtain ⟨number, _, _, rfl⟩ := isCounted
  have listed : part.1 ∈ parts.map Prod.fst := List.mem_map_of_mem member
  have within := (List.sublist_flatten_of_mem listed).length_le
  rw [List.length_append]
  omega

private theorem readsAs_headed (header : Header) (kind : Nat) (before chunk : Bytes)
    (coordinates : Coordinates) (levels : Nat) (greatest : kind ≤ 7)
    (introduces : Introduces header kind before) (deep : (before ++ chunk).length ≤ levels)
    (reads : ∀ inner, chunk.length ≤ inner → ∃ bounds,
      ReadsAs (content inner header.littleEndian kind header.dimensions) chunk bounds ∧
        IsBox coordinates bounds) :
    ∃ bounds, ReadsAs (geometry levels) (before ++ chunk) bounds ∧ IsBox coordinates bounds := by
  have headed := length_lt header kind before introduces
  rw [List.length_append] at deep
  cases levels with
  | zero => omega
  | succ inner =>
      obtain ⟨bounds, readsContent, isBox⟩ := reads inner (by omega)
      refine ⟨bounds, ?_, isBox⟩
      rw [geometry_succ]
      exact readsAs_bind _ _ _ _ _ _ (readsAs_introduction header kind before greatest introduces)
        readsContent

private theorem readsAs_geometry (kind : Nat) (chunk : Bytes) (coordinates : Coordinates)
    (isGeometry : Geometry lenient kind chunk coordinates) (levels : Nat)
    (deep : chunk.length ≤ levels) :
    ∃ bounds, ReadsAs (geometry levels) chunk bounds ∧ IsBox coordinates bounds := by
  induction isGeometry generalizing levels with
  | point header before chunk coordinates _ introduces isPosition =>
      exact readsAs_headed header 1 before chunk coordinates levels (by decide) introduces deep
        fun _ _ => readsAs_point header chunk coordinates isPosition
  | lineString header before chunk coordinates _ introduces isSequence =>
      exact readsAs_headed header 2 before chunk coordinates levels (by decide) introduces deep
        fun _ _ => readsAs_sequence header _ _ (readsAs_point header) (length_position header) chunk
          coordinates isSequence
  | polygon header before chunk coordinates _ introduces isSequence =>
      exact readsAs_headed header 3 before chunk coordinates levels (by decide) introduces deep
        fun _ _ => readsAs_sequence header _ _
          (readsAs_sequence header _ _ (readsAs_point header) (length_position header))
          (length_sequence header _) chunk coordinates isSequence
  | collection kind header before chunk members least greatest _ introduces isCounted _ isMember
      ih =>
      refine readsAs_headed header kind before chunk _ levels greatest introduces deep
        fun inner within => ?_
      have isCollection : content inner header.littleEndian kind header.dimensions =
          counted header.littleEndian (geometry inner) := by
        rw [content, if_neg (by omega), if_neg (by omega), if_neg (by omega),
          if_pos ⟨least, greatest⟩]
      rw [isCollection]
      have reads := readsAs_counted header (geometry inner) (members.map Prod.snd) chunk isCounted
        (fun part member => by
          have short := length_le_counted header _ chunk isCounted part member
          obtain ⟨found, foundMember, rfl⟩ := List.mem_map.mp member
          exact ih found foundMember inner (by omega))
        (fun part member => by
          obtain ⟨found, foundMember, rfl⟩ := List.mem_map.mp member
          exact (length_geometry _ _ _ (isMember found foundMember)).1)
      rw [List.map_map] at reads
      exact reads

/-- Parts that are geometries of some base type are the members of a collection. -/
private theorem exists_members (parts : List (Bytes × Coordinates))
    (each : ∀ part ∈ parts, ∃ kind, Geometry lenient kind part.1 part.2) :
    ∃ members : List (Nat × Bytes × Coordinates), members.map Prod.snd = parts ∧
      ∀ member ∈ members, Geometry lenient member.1 member.2.1 member.2.2 := by
  induction parts with
  | nil => exact ⟨[], rfl, nofun⟩
  | cons part rest ih =>
      obtain ⟨kind, isGeometry⟩ := each part List.mem_cons_self
      obtain ⟨members, rfl, isMember⟩ :=
        ih fun other member => each other (List.mem_cons_of_mem _ member)
      refine ⟨(kind, part) :: members, rfl, fun member found => ?_⟩
      rcases List.mem_cons.mp found with rfl | found
      · exact isGeometry
      · exact isMember member found

private theorem sound_geometry (levels : Nat) :
    Sound (geometry levels) (Holds fun chunk coordinates =>
      ∃ kind, Geometry lenient kind chunk coordinates) := by
  induction levels with
  | zero =>
      intro input bounds rest read
      unfold geometry at read
      cases read
  | succ levels ih =>
      intro input bounds rest read
      rw [geometry_succ] at read
      obtain ⟨⟨littleEndian, kind, dimensions⟩, middle, readHeader, readContent⟩ :=
        (bind_ok_iff _ _ _ _ _).mp read
      obtain ⟨before, rfl, _, introduced⟩ := sound_introduction _ _ _ readHeader
      dsimp only at readContent introduced
      unfold content at readContent
      split at readContent
      · rename_i isPoint
        subst isPoint
        obtain ⟨header, introduces, same⟩ := introduced (by decide)
        cases same
        obtain ⟨chunk, rfl, coordinates, holds, isBox⟩ := sound_point header _ _ _ readContent
        exact ⟨before ++ chunk, (List.append_assoc ..).symm, coordinates,
          ⟨1, .point header before chunk coordinates trivial introduces holds⟩, isBox⟩
      · split at readContent
        · rename_i isLine
          subst isLine
          obtain ⟨header, introduces, same⟩ := introduced (by decide)
          cases same
          obtain ⟨chunk, rfl, coordinates, holds, isBox⟩ :=
            sound_counted header _ _ (sound_point header) _ _ _ readContent
          exact ⟨before ++ chunk, (List.append_assoc ..).symm, coordinates,
            ⟨2, .lineString header before chunk coordinates trivial introduces holds⟩, isBox⟩
        · split at readContent
          · rename_i isPolygon
            subst isPolygon
            obtain ⟨header, introduces, same⟩ := introduced (by decide)
            cases same
            obtain ⟨chunk, rfl, coordinates, holds, isBox⟩ := sound_counted header _ _
              (sound_counted header _ _ (sound_point header)) _ _ _ readContent
            exact ⟨before ++ chunk, (List.append_assoc ..).symm, coordinates,
              ⟨3, .polygon header before chunk coordinates trivial introduces holds⟩, isBox⟩
          · split at readContent
            · rename_i isCollection
              obtain ⟨header, introduces, same⟩ := introduced isCollection.2
              cases same
              obtain ⟨chunk, rfl, coordinates, ⟨parts, each, isCounted, rfl⟩, isBox⟩ :=
                sound_counted header _ _ ih _ _ _ readContent
              obtain ⟨members, rfl, isMember⟩ := exists_members parts each
              refine ⟨before ++ chunk, (List.append_assoc ..).symm, _,
                ⟨kind, .collection kind header before chunk members isCollection.1 isCollection.2
                  trivial introduces isCounted (fun _ _ => trivial) isMember⟩, ?_⟩
              rw [List.map_map] at isBox
              exact isBox
            · cases readContent

/-! ## Failures -/

private def IsFilterError (fault : Fault) : Prop :=
  ∃ message, fault = .filterV2Error message

private theorem failsOnly_take (length bound : Nat) :
    FailsOnly (take length) bound IsFilterError := by
  intro input fault _ fails
  rw [take] at fails
  split at fails
  · cases fails
    exact ⟨_, rfl⟩
  · cases fails

private theorem failsOnly_next {α β : Type} (first : Reader α) (next : α → Reader β)
    (language : Bytes → α → Prop) (bound : Nat) (sound : Sound first language)
    (here : FailsOnly first bound IsFilterError)
    (there : ∀ value, FailsOnly (next value) bound IsFilterError) :
    FailsOnly (first >>= next) bound IsFilterError :=
  failsOnly_bind first next language bound bound _ sound (fun _ _ _ => Nat.le_add_right ..) here
    there

private theorem failsOnly_uint32 (littleEndian : Bool) (bound : Nat) :
    FailsOnly (uint32 littleEndian) bound IsFilterError :=
  failsOnly_next _ _ _ bound (sound_take 4) (failsOnly_take 4 bound)
    fun _ => failsOnly_pure _ bound _

private theorem failsOnly_float64 (littleEndian : Bool) (bound : Nat) :
    FailsOnly (float64 littleEndian) bound IsFilterError :=
  failsOnly_next _ _ _ bound (sound_take 8) (failsOnly_take 8 bound)
    fun _ => failsOnly_pure _ bound _

private theorem failsOnly_others (littleEndian : Bool) (dimensions : List Nat) (bound : Nat) :
    FailsOnly (others littleEndian dimensions) bound IsFilterError := by
  induction dimensions with
  | nil => exact failsOnly_pure PUnit.unit bound _
  | cons dimension rest ih =>
      rw [others_cons]
      exact failsOnly_next _ _ _ bound (sound_float64 littleEndian)
        (failsOnly_float64 littleEndian bound) fun _ => ih

private theorem failsOnly_checked (x y : Number) (bound : Nat) :
    FailsOnly (checked x y) bound IsFilterError := by
  intro input fault _ fails
  unfold checked at fails
  split at fails
  · cases fails
  · dsimp only at fails
    split at fails
    · cases fails
      exact ⟨_, rfl⟩
    · cases fails

private theorem failsOnly_point (littleEndian : Bool) (dimensions bound : Nat) :
    FailsOnly (point littleEndian dimensions) bound IsFilterError := by
  rw [point_eq]
  refine failsOnly_next _ _ _ bound (sound_float64 littleEndian)
    (failsOnly_float64 littleEndian bound) fun x => ?_
  refine failsOnly_next _ _ _ bound (sound_float64 littleEndian)
    (failsOnly_float64 littleEndian bound) fun y => ?_
  exact failsOnly_next _ _ _ bound (sound_others littleEndian _)
    (failsOnly_others littleEndian _ bound) fun _ => failsOnly_checked x y bound

private theorem failsOnly_mergeTimes (step : Reader (Option Bounds))
    (language : Bytes → Option Bounds → Prop) (sound : Sound step language) (bound : Nat)
    (fails : FailsOnly step bound IsFilterError) (count : Nat) (box : Option Bounds) :
    FailsOnly (mergeTimes step count box) bound IsFilterError := by
  induction count generalizing box with
  | zero => exact failsOnly_pure box bound _
  | succ count ih => exact failsOnly_next _ _ _ bound sound fails fun here => ih (merge box here)

private theorem failsOnly_counted (littleEndian : Bool) (step : Reader (Option Bounds))
    (language : Bytes → Option Bounds → Prop) (sound : Sound step language) (bound : Nat)
    (fails : FailsOnly step bound IsFilterError) :
    FailsOnly (counted littleEndian step) bound IsFilterError := by
  refine failsOnly_next _ _ _ bound (sound_count littleEndian) ?_ fun length =>
    failsOnly_mergeTimes step language sound bound fails length none
  rw [count_eq]
  refine failsOnly_next _ _ _ bound (sound_uint32 littleEndian)
    (failsOnly_uint32 littleEndian bound) fun number input fault _ refused => ?_
  rw [bounded_eq] at refused
  split at refused
  · cases refused
    exact ⟨_, rfl⟩
  · cases refused

private theorem failsOnly_introduction (bound : Nat) :
    FailsOnly introduction bound IsFilterError := by
  rw [introduction_eq]
  refine failsOnly_next _ _ _ bound (sound_take 1) (failsOnly_take 1 bound) fun order => ?_
  split
  · intro input fault _ fails
    cases fails
    exact ⟨_, rfl⟩
  · refine failsOnly_next _ _ _ bound (sound_uint32 _) (failsOnly_uint32 _ bound) fun word => ?_
    unfold optional
    split
    · exact failsOnly_next _ _ _ bound (sound_uint32 _) (failsOnly_uint32 _ bound)
        fun _ => failsOnly_pure _ bound _
    · exact failsOnly_pure _ bound _

/-- Whatever a reader accepts, it leaves a suffix. -/
private def LeavesSuffix {α : Type} (reader : Reader α) : Prop :=
  Sound reader fun _ _ => True

private theorem leavesSuffix_bind {α β : Type} (first : Reader α) (next : α → Reader β)
    (language : Bytes → α → Prop) (sound : Sound first language)
    (there : ∀ value, LeavesSuffix (next value)) : LeavesSuffix (first >>= next) :=
  sound_mono _ _ _ (sound_bind first next _ _ sound there) fun _ _ _ => trivial

private theorem leavesSuffix_point (littleEndian : Bool) (dimensions : Nat) :
    LeavesSuffix (point littleEndian dimensions) := by
  rw [point_eq]
  refine leavesSuffix_bind _ _ _ (sound_float64 littleEndian) fun x => ?_
  refine leavesSuffix_bind _ _ _ (sound_float64 littleEndian) fun y => ?_
  refine leavesSuffix_bind _ _ _ (sound_others littleEndian _) fun _ => ?_
  intro input bounds rest read
  obtain ⟨_, rfl, _⟩ := (checked_ok_iff _ _ _ _ _).mp read
  exact ⟨[], rfl, trivial⟩

private theorem leavesSuffix_counted (littleEndian : Bool) (step : Reader (Option Bounds))
    (suffix : LeavesSuffix step) : LeavesSuffix (counted littleEndian step) := by
  refine leavesSuffix_bind _ _ _ (sound_count littleEndian) fun length => ?_
  generalize (none : Option Bounds) = box
  induction length generalizing box with
  | zero => exact sound_mono _ _ _ (sound_pure box) fun _ _ _ => trivial
  | succ count ih => exact leavesSuffix_bind _ _ _ suffix fun here => ih (merge box here)

/-- Each level takes a byte, so the levels do not run out. -/
private theorem failsOnly_geometry (levels : Nat) :
    FailsOnly (geometry levels) levels IsFilterError := by
  induction levels with
  | zero => exact fun input fault short => absurd short (Nat.not_lt_zero _)
  | succ levels ih =>
      rw [geometry_succ]
      refine failsOnly_bind _ _ _ (levels + 1) levels _ sound_introduction
        (fun chunk read taken => by omega) (failsOnly_introduction _) ?_
      rintro ⟨littleEndian, kind, dimensions⟩
      have onPoint := failsOnly_point littleEndian dimensions levels
      have onPoints := failsOnly_counted littleEndian _ _
        (leavesSuffix_point littleEndian dimensions) levels onPoint
      dsimp only
      unfold content
      split
      · exact onPoint
      · split
        · exact onPoints
        · split
          · exact failsOnly_counted littleEndian _ _
              (leavesSuffix_counted littleEndian _ (leavesSuffix_point littleEndian dimensions))
              levels onPoints
          · split
            · exact failsOnly_counted littleEndian _ _ (sound_geometry levels) levels ih
            · intro input fault _ fails
              cases fails
              exact ⟨_, rfl⟩

/-! ## Acceptance and the box -/

private theorem read_ok_iff (bytes : Bytes) (bounds : Option Bounds) :
    read bytes = .ok bounds ↔ geometry (bytes.length + 1) bytes = .ok (bounds, []) := by
  unfold WkbBoundsReader.read
  cases geometry (bytes.length + 1) bytes with
  | error fault => exact ⟨nofun, nofun⟩
  | ok outcome =>
      obtain ⟨found, rest⟩ := outcome
      rw [except_ok_bind]
      dsimp only
      cases rest with
      | nil =>
          rw [if_neg (fun differs => differs rfl)]
          constructor
          · intro same
            cases same
            rfl
          · intro same
            cases same
            rfl
      | cons byte rest =>
          rw [if_pos (by nofun)]
          exact ⟨nofun, nofun⟩

private theorem read_geometry (kind : Nat) (bytes : Bytes) (coordinates : Coordinates)
    (isGeometry : Geometry lenient kind bytes coordinates) :
    ∃ bounds, read bytes = .ok bounds ∧ IsBox coordinates bounds := by
  obtain ⟨bounds, reads, isBox⟩ :=
    readsAs_geometry kind bytes coordinates isGeometry (bytes.length + 1) (Nat.le_succ _)
  have whole := reads []
  rw [List.append_nil] at whole
  exact ⟨bounds, (read_ok_iff bytes bounds).mpr whole, isBox⟩

/-- The reader accepts a byte string exactly when it is one geometry of the lenient dialect. It
gives the box of all its coordinates, and refuses every other byte string with a filter error. -/
theorem bounding_box_iff (bytes : Bytes) :
    ((∃ bounds, read bytes = .ok bounds) ↔
      ∃ kind coordinates, Geometry lenient kind bytes coordinates) ∧
    (∀ kind coordinates bounds, Geometry lenient kind bytes coordinates →
      read bytes = .ok bounds → IsBox coordinates bounds) ∧
    (∀ fault, read bytes = .error fault → ∃ message, fault = .filterV2Error message) := by
  refine ⟨⟨?_, ?_⟩, ?_, ?_⟩
  · rintro ⟨bounds, reads⟩
    obtain ⟨chunk, split, coordinates, ⟨kind, isGeometry⟩, _⟩ :=
      sound_geometry _ _ _ _ ((read_ok_iff bytes bounds).mp reads)
    rw [List.append_nil] at split
    subst split
    exact ⟨kind, coordinates, isGeometry⟩
  · rintro ⟨kind, coordinates, isGeometry⟩
    obtain ⟨bounds, reads, _⟩ := read_geometry kind bytes coordinates isGeometry
    exact ⟨bounds, reads⟩
  · intro kind coordinates bounds isGeometry reads
    obtain ⟨found, readsFound, isBox⟩ := read_geometry kind bytes coordinates isGeometry
    cases reads.symm.trans readsFound
    exact isBox
  · intro fault fails
    unfold WkbBoundsReader.read at fails
    cases outcome : geometry (bytes.length + 1) bytes with
    | error other =>
        rw [outcome] at fails
        cases fails
        exact failsOnly_geometry _ bytes fault (Nat.lt_succ_self _) outcome
    | ok accepted =>
        rw [outcome, except_ok_bind] at fails
        dsimp only at fails
        split at fails
        · cases fails
          exact ⟨_, rfl⟩
        · cases fails

theorem bounding_box_sample :
    ∃ bounds, read ([1, 1, 0, 0, 0] ++ List.replicate 16 0) = .ok bounds ∧
      IsBox [(.ofInt 0, .ofInt 0)] bounds := by
  have isPoint : Geometry lenient 1 ([1, 1, 0, 0, 0] ++ List.replicate 16 0)
      [(.ofInt 0, .ofInt 0)] :=
    .point ⟨true, false, false, false, false, 0, by decide⟩ _ _ _ trivial
      ⟨[1, 0, 0, 0], [], rfl, rfl, by decide, rfl⟩
      ⟨List.replicate 8 0, List.replicate 8 0, [], rfl, rfl, rfl, rfl,
        .inr ⟨by decide +kernel, by decide +kernel⟩, by decide +kernel⟩
  obtain ⟨bounds, reads⟩ := (bounding_box_iff _).1.mpr ⟨1, _, isPoint⟩
  exact ⟨bounds, reads, (bounding_box_iff _).2.1 1 _ _ isPoint reads⟩

private theorem introduces_word (header : Header) (kind : Nat) (before chunk rest : Bytes)
    (order first second third fourth : UInt8) (introduces : Introduces header kind before)
    (same : order :: first :: second :: third :: fourth :: rest = before ++ chunk) :
    order = (if header.littleEndian then 1 else 0) ∧
      unsigned header.littleEndian [first, second, third, fourth] = header.typeWord kind ∧
      (header.hasSrid = false → chunk = rest) := by
  obtain ⟨word, srid, rfl, length, isWord, sridLength⟩ := introduces
  obtain ⟨a, b, c, d, rfl⟩ := List.length_eq_four.mp length
  simp only [List.cons_append, List.nil_append, List.cons.injEq] at same
  obtain ⟨isOrder, rfl, rfl, rfl, rfl, rfl⟩ := same
  refine ⟨isOrder, isWord, fun absent => ?_⟩
  rw [Header.sridLength, absent] at sridLength
  rw [List.length_eq_zero_iff.mp sridLength]
  rfl

/-- A multipoint of one empty line string. -/
private def lineAmongPoints : Bytes :=
  [1, 4, 0, 0, 0, 1, 0, 0, 0, 1, 2, 0, 0, 0, 0, 0, 0, 0]

/-- A point at infinity. -/
private def infinitePoint : Bytes :=
  [1, 1, 0, 0, 0] ++ [0, 0, 0, 0, 0, 0, 0xf0, 0x7f] ++ List.replicate 8 0

private theorem line_not_point (coordinates : Coordinates) :
    ¬ Geometry strict 1 [1, 2, 0, 0, 0, 0, 0, 0, 0] coordinates := by
  generalize isBytes : ([1, 2, 0, 0, 0, 0, 0, 0, 0] : Bytes) = bytes
  intro isGeometry
  cases isGeometry with
  | point header before chunk _ _ introduces =>
      obtain ⟨order, isWord, _⟩ :=
        introduces_word header 1 before chunk _ 1 2 0 0 0 introduces isBytes
      cases little : header.littleEndian with
      | false => rw [little] at order; exact absurd order (by decide)
      | true =>
          rw [little] at isWord
          have two : unsigned true [2, 0, 0, 0] = 2 := by decide
          rw [two] at isWord
          unfold Header.typeWord at isWord
          omega
  | collection _ _ _ _ _ least => exact absurd least (by decide)

private theorem kind_le_typeWord (header : Header) (kind : Nat) :
    kind ≤ header.typeWord kind := by
  simp only [Header.typeWord, Nat.add_assoc]
  exact Nat.le_add_right _ _

private theorem lineAmongPoints_not_strict (kind : Nat) (coordinates : Coordinates) :
    ¬ Geometry strict kind lineAmongPoints coordinates := by
  have word (header : Header) (base : Nat) (before chunk : Bytes)
      (introduces : Introduces header base before) (same : lineAmongPoints = before ++ chunk) :
      header.littleEndian = true ∧ header.typeWord base = 4 ∧
        (header.hasSrid = false → chunk = lineAmongPoints.drop 5) := by
    obtain ⟨order, isWord, isChunk⟩ :=
      introduces_word header base before chunk (lineAmongPoints.drop 5) 1 4 0 0 0 introduces same
    cases little : header.littleEndian with
    | false => rw [little] at order; exact absurd order (by decide)
    | true => rw [little] at isWord; exact ⟨rfl, isWord.symm, isChunk⟩
  generalize isBytes : lineAmongPoints = bytes
  intro isGeometry
  cases isGeometry with
  | point header before chunk _ _ introduces =>
      have isWord := (word header 1 before chunk introduces isBytes).2.1
      unfold Header.typeWord at isWord
      omega
  | lineString header before chunk _ _ introduces =>
      have isWord := (word header 2 before chunk introduces isBytes).2.1
      unfold Header.typeWord at isWord
      omega
  | polygon header before chunk _ _ introduces =>
      have isWord := (word header 3 before chunk introduces isBytes).2.1
      unfold Header.typeWord at isWord
      omega
  | collection _ header before chunk members least greatest _ introduces isCounted kinds isMember =>
      obtain ⟨little, isWord, isChunk⟩ := word header kind before chunk introduces isBytes
      have isKind : kind = 4 := Nat.le_antisymm (isWord ▸ kind_le_typeWord header kind) least
      subst isKind
      have absent : header.hasSrid = false := by
        cases present : header.hasSrid with
        | false => rfl
        | true =>
            have small := isWord.le
            rw [Header.typeWord, present, Bool.toNat_true] at small
            clear isWord
            omega
      obtain ⟨number, length, isNumber, isContent⟩ := isCounted
      rw [isChunk absent] at isContent
      obtain ⟨a, b, c, d, rfl⟩ := List.length_eq_four.mp length
      simp only [lineAmongPoints, List.drop_succ_cons, List.drop_zero, List.cons_append,
        List.nil_append, List.cons.injEq] at isContent
      obtain ⟨rfl, rfl, rfl, rfl, isContent⟩ := isContent
      rw [little, List.length_map] at isNumber
      obtain ⟨member, rfl⟩ := List.length_eq_one_iff.mp isNumber.symm
      obtain ⟨base, inner, held⟩ := member
      simp only [List.map_cons, List.map_nil, List.flatten_cons, List.flatten_nil,
        List.append_nil] at isContent
      subst isContent
      have isBase : base = 1 := by
        rcases kinds _ List.mem_cons_self with notFour | isBase
        · cases notFour
        · exact Nat.add_right_cancel isBase
      subst isBase
      exact line_not_point held (isMember _ List.mem_cons_self)

theorem strict_acceptance_fails :
    ((∃ bounds, read lineAmongPoints = .ok bounds) ∧
      ¬ ∃ kind coordinates, Geometry strict kind lineAmongPoints coordinates) ∧
    (Geometry strict 1 infinitePoint [(.infinity false, .zero)] ∧
      ¬ ∃ bounds, read infinitePoint = .ok bounds) := by
  refine ⟨⟨⟨none, by rfl⟩, ?_⟩, ?_, ?_⟩
  · rintro ⟨kind, coordinates, isGeometry⟩
    exact lineAmongPoints_not_strict kind coordinates isGeometry
  · exact .point ⟨true, false, false, false, false, 0, by decide⟩ [1, 1, 0, 0, 0] _ _
      ⟨rfl, .inl rfl⟩ ⟨[1, 0, 0, 0], [], rfl, rfl, by decide, rfl⟩
      ⟨[0, 0, 0, 0, 0, 0, 0xf0, 0x7f], List.replicate 8 0, [], rfl, rfl, rfl, rfl, trivial,
        by decide +kernel⟩
  · rintro ⟨bounds, reads⟩
    have refused : read infinitePoint = throwV2 (text "WKB coordinate must be finite") := by rfl
    rw [refused] at reads
    cases reads

end VgiWorker.FilterPushdown.WellKnownBinary
