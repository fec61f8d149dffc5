import Raceway.Geometry.Point
/-!
# Segments

Directed segments and the point where two of them meet.
-/

namespace Raceway

/-- The segment from `a` to `b`: a wall, a gate, a ray or an edge. -/
structure Segment (α : Type) where
  a : Point α
  b : Point α
deriving DecidableEq, Repr

namespace Segment

variable {α : Type} [Coord α]

instance : Inhabited (Segment α) := ⟨default, default⟩

/-- Whether a coordinate lies between 0 and 1, ends included. -/
@[inline] def inUnit (t : α) : Bool :=
  decide (0 ≤ t) && decide (t ≤ 1)

/-- The cross product of the directions, which is 0 for parallel segments. -/
@[inline] def cross (s t : Segment α) : α :=
  (t.b.y - t.a.y) * (s.b.x - s.a.x) - (t.b.x - t.a.x) * (s.b.y - s.a.y)

/-- The point where `s` meets `t`. Both are run through by a parameter, and the parameters of
the point have to lie in `[0, 1]`. Parallel segments never meet, not even where they overlap. -/
@[specialize] def intersect (s t : Segment α) : Option (Point α) :=
  let den := s.cross t
  if den == 0 then none
  else
    let u := ((t.b.x - t.a.x) * (s.a.y - t.a.y) - (t.b.y - t.a.y) * (s.a.x - t.a.x)) / den
    let v := ((s.b.x - s.a.x) * (s.a.y - t.a.y) - (s.b.y - s.a.y) * (s.a.x - t.a.x)) / den
    if inUnit u && inUnit v then
      some ⟨s.a.x + u * (s.b.x - s.a.x), s.a.y + u * (s.b.y - s.a.y)⟩
    else none

@[specialize] def intersects (s t : Segment α) : Bool :=
  (s.intersect t).isSome

@[specialize] def minX (s : Segment α) : α := Coord.least s.a.x s.b.x
@[specialize] def maxX (s : Segment α) : α := Coord.greatest s.a.x s.b.x
@[specialize] def minY (s : Segment α) : α := Coord.least s.a.y s.b.y
@[specialize] def maxY (s : Segment α) : α := Coord.greatest s.a.y s.b.y

end Segment

end Raceway
