import Raceway.Double.Floor
/-!
# Coordinates

Geometry, grids and searches are written once, over any type with the operations below. Tracks
are loaded and queried with doubles; over the rationals the same formulas carry no rounding.
-/

namespace Raceway

/-- A type of coordinates. Equality is the test `==`, which need not be reflexive. -/
class Coord (α : Type) extends
    Add α, Sub α, Mul α, Div α, Zero α, One α, BEq α, LE α, LT α where
  decLe : DecidableLE α
  decLt : DecidableLT α
  ofWord : UInt32 → α
  isFinite : α → Bool
  floor : α → α
  /-- The whole part, clamped to the range of a word. What is not a number counts as 0. -/
  toWord : α → UInt32

attribute [reducible, instance] Coord.decLe Coord.decLt

namespace Coord

instance : Coord Float where
  zero := 0.0
  one := 1.0
  decLe := Float.decLe
  decLt := Float.decLt
  ofWord := UInt32.toFloat
  isFinite := Float.isFinite
  floor := Double.floor
  toWord := Float.toUInt32

instance : Coord Rat where
  zero := 0
  one := 1
  decLe := Rat.instDecidableLe
  decLt := Rat.instDecidableLt
  ofWord n := (n.toNat : Rat)
  isFinite _ := true
  floor x := (x.floor : Rat)
  toWord x := UInt32.ofNatClamp x.floor.toNat

variable {α : Type} [Coord α]

/-- The smaller of two coordinates, the second one where they are equal, and the other one where
one is no number. -/
@[specialize] def least (a b : α) : α :=
  if a < b then a else if b == b then b else a

/-- The larger of two coordinates, the second one where they are equal, and the other one where
one is no number. -/
@[specialize] def greatest (a b : α) : α :=
  if b < a then a else if b == b then b else a

end Coord

end Raceway
