import Raceway.Coord
/-!
# Points

Points of the plane and their distances.
-/

namespace Raceway

/-- A point of the plane. -/
structure Point (α : Type) where
  x : α
  y : α
deriving DecidableEq, Repr

namespace Point

/-- Points are compared coordinate by coordinate, with the test of the coordinates. -/
instance {α : Type} [BEq α] : BEq (Point α) where
  beq p q := p.x == q.x && p.y == q.y

variable {α : Type} [Coord α]

instance : Inhabited (Point α) := ⟨0, 0⟩

@[specialize] def isFinite (p : Point α) : Bool :=
  Coord.isFinite p.x && Coord.isFinite p.y

@[specialize] def distanceSquared (p q : Point α) : α :=
  let dx := q.x - p.x
  let dy := q.y - p.y
  dx * dx + dy * dy

def distance (p q : Point Float) : Float :=
  (p.distanceSquared q).sqrt

/-- The point that stands for "nowhere". -/
def atInfinity : Point Float :=
  ⟨Float.ofBits 0x7ff0000000000000, Float.ofBits 0x7ff0000000000000⟩

end Point

end Raceway
