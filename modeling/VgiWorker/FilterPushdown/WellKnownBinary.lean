import VgiWorker.FilterPushdown.Evaluate
import VgiWorker.Js.NumberProperties
import Mathlib.Order.Bounds.Basic

/-!
# Well-known binary

The grammar of encoded geometries, with the coordinates each holds, and the box around
coordinates. What a dialect leaves open is a parameter of the grammar.
-/

set_option autoImplicit false

namespace VgiWorker.FilterPushdown.WellKnownBinary

open VgiWorker.Js
open WkbBoundsReader (unsigned)

abbrev Coordinates := List (Number × Number)

/-- What stands before the content of a geometry, the base type apart. -/
structure Header where
  littleEndian : Bool
  hasZ : Bool
  hasM : Bool
  hasSrid : Bool
  unassigned : Bool
  thousands : Nat
  thousands_lt : thousands < 4

namespace Header

def typeWord (header : Header) (kind : Nat) : Nat :=
  kind + 1000 * header.thousands + 2 ^ 28 * header.unassigned.toNat +
    2 ^ 29 * header.hasSrid.toNat + 2 ^ 30 * header.hasM.toNat + 2 ^ 31 * header.hasZ.toNat

def dimensions (header : Header) : Nat :=
  match header.thousands with
  | 0 => 2 + header.hasZ.toNat + header.hasM.toNat
  | 3 => 4
  | _ => 3

def sridLength (header : Header) : Nat :=
  if header.hasSrid then 4 else 0

end Header

/-- What encodings may hold: the headers, the base types of the members of a collection of each
base type, and the coordinates. -/
structure Dialect where
  header : Header → Prop
  member : Nat → Nat → Prop
  position : Number → Number → Prop

section

variable (dialect : Dialect)

def Introduces (header : Header) (kind : Nat) (chunk : Bytes) : Prop :=
  ∃ word srid : Bytes, chunk = (if header.littleEndian then 1 else 0) :: word ++ srid ∧
    word.length = 4 ∧ unsigned header.littleEndian word = header.typeWord kind ∧
    srid.length = header.sridLength

/-- A position without x and y is the empty one. -/
def coordinatesOf (x y : Number) : Coordinates :=
  if x.isNaN && y.isNaN then [] else [(x, y)]

def Position (header : Header) (chunk : Bytes) (coordinates : Coordinates) : Prop :=
  ∃ x y others : Bytes, chunk = x ++ y ++ others ∧ x.length = 8 ∧ y.length = 8 ∧
    others.length = 8 * (header.dimensions - 2) ∧
    dialect.position (.ofBits (unsigned header.littleEndian x))
      (.ofBits (unsigned header.littleEndian y)) ∧
    coordinates = coordinatesOf (.ofBits (unsigned header.littleEndian x))
      (.ofBits (unsigned header.littleEndian y))

/-- Parts with their number before them. -/
def Counted (header : Header) (parts : List (Bytes × Coordinates)) (chunk : Bytes) : Prop :=
  ∃ count : Bytes, count.length = 4 ∧ unsigned header.littleEndian count = parts.length ∧
    chunk = count ++ (parts.map Prod.fst).flatten

def Sequence (header : Header) (item : Bytes → Coordinates → Prop) (chunk : Bytes)
    (coordinates : Coordinates) : Prop :=
  ∃ parts, (∀ part ∈ parts, item part.1 part.2) ∧ Counted header parts chunk ∧
    coordinates = (parts.map Prod.snd).flatten

/-- The encodings of geometries of a base type, with their coordinates in order. -/
inductive Geometry : Nat → Bytes → Coordinates → Prop where
  | point (header : Header) (before chunk : Bytes) (coordinates : Coordinates)
      (allowed : dialect.header header) (introduces : Introduces header 1 before)
      (content : Position dialect header chunk coordinates) :
      Geometry 1 (before ++ chunk) coordinates
  | lineString (header : Header) (before chunk : Bytes) (coordinates : Coordinates)
      (allowed : dialect.header header) (introduces : Introduces header 2 before)
      (content : Sequence header (Position dialect header) chunk coordinates) :
      Geometry 2 (before ++ chunk) coordinates
  | polygon (header : Header) (before chunk : Bytes) (coordinates : Coordinates)
      (allowed : dialect.header header) (introduces : Introduces header 3 before)
      (content : Sequence header (Sequence header (Position dialect header)) chunk coordinates) :
      Geometry 3 (before ++ chunk) coordinates
  | collection (kind : Nat) (header : Header) (before chunk : Bytes)
      (members : List (Nat × Bytes × Coordinates)) (least : 4 ≤ kind) (greatest : kind ≤ 7)
      (allowed : dialect.header header) (introduces : Introduces header kind before)
      (counted : Counted header (members.map Prod.snd) chunk)
      (kinds : ∀ member ∈ members, dialect.member kind member.1)
      (content : ∀ member ∈ members, Geometry member.1 member.2.1 member.2.2) :
      Geometry kind (before ++ chunk) ((members.map fun member => member.2.2).flatten)

end

/-- Either form of dimension flags, and members of the base type that a collection names. -/
def strict : Dialect where
  header header := header.unassigned = false ∧
    (header.thousands = 0 ∨ header.hasZ = false ∧ header.hasM = false)
  member kind member := kind = 7 ∨ member + 3 = kind
  position _ _ := True

/-- Any flags and members; a position is empty or finite. -/
def lenient : Dialect where
  header _ := True
  member _ _ := True
  position x y := x.isNaN = true ∧ y.isNaN = true ∨ x.isFinite = true ∧ y.isFinite = true

/-! ## The box around coordinates -/

def ordinates (side : Number × Number → Number) (coordinates : Coordinates) : Set ℚ :=
  { value | ∃ position ∈ coordinates, (side position).toRat? = some value }

def IsBox (coordinates : Coordinates) : Option Bounds → Prop
  | none => coordinates = []
  | some bounds => ∃ minX minY maxX maxY : ℚ,
      bounds.minX.toRat? = some minX ∧ bounds.minY.toRat? = some minY ∧
      bounds.maxX.toRat? = some maxX ∧ bounds.maxY.toRat? = some maxY ∧
      IsLeast (ordinates Prod.fst coordinates) minX ∧
      IsLeast (ordinates Prod.snd coordinates) minY ∧
      IsGreatest (ordinates Prod.fst coordinates) maxX ∧
      IsGreatest (ordinates Prod.snd coordinates) maxY

end VgiWorker.FilterPushdown.WellKnownBinary
