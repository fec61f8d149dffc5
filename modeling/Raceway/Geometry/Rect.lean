import Raceway.Geometry.Segment
/-!
# Rectangles

Rectangles with sides along the axes, borders included, and the segments that touch them.
-/

namespace Raceway

/-- The rectangle between two opposite corners. -/
structure Rect (α : Type) where
  min : Point α
  max : Point α
deriving DecidableEq, Repr

namespace Rect

variable {α : Type} [Coord α]

/-- The rectangle of a width and a height at a corner. -/
@[specialize] def ofCorner (x y width height : α) : Rect α :=
  ⟨⟨x, y⟩, ⟨x + width, y + height⟩⟩

@[specialize] def contains (r : Rect α) (p : Point α) : Bool :=
  decide (r.min.x ≤ p.x) && decide (p.x ≤ r.max.x) &&
    decide (r.min.y ≤ p.y) && decide (p.y ≤ r.max.y)

/-- The four sides in the order top, right, bottom, left, each starting where the last one
ends. -/
def edges (r : Rect α) : List (Segment α) :=
  let topRight : Point α := ⟨r.max.x, r.min.y⟩
  let bottomLeft : Point α := ⟨r.min.x, r.max.y⟩
  [⟨r.min, topRight⟩, ⟨topRight, r.max⟩, ⟨r.max, bottomLeft⟩, ⟨bottomLeft, r.min⟩]

@[specialize] def crossesBoundary (r : Rect α) (s : Segment α) : Bool :=
  r.edges.any fun edge => s.intersects edge

/-- Whether the rectangle meets the box that encloses the segment. -/
@[specialize] def overlapsBounds (r : Rect α) (s : Segment α) : Bool :=
  decide (r.min.x ≤ s.maxX) && decide (s.minX ≤ r.max.x) &&
    decide (r.min.y ≤ s.maxY) && decide (s.minY ≤ r.max.y)

/-- Whether an end of the segment lies in the rectangle or the segment crosses a side. Segments
whose box stays clear of the rectangle are turned down at once. -/
@[specialize] def touches (r : Rect α) (s : Segment α) : Bool :=
  r.overlapsBounds s && (r.contains s.a || r.contains s.b || r.crossesBoundary s)

end Rect

end Raceway
