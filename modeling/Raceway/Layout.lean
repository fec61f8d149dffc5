import Raceway.Geometry.Segment
import Raceway.TrackError
/-!
# Track layouts

A layout is drawn by points: two rings of wall and the ends of the gates. Points come from flat
lists of coordinates; joined up they give the walls, taken two by two the gates.
-/

namespace Raceway

/-- The points that a track is drawn with. -/
structure Layout (α : Type) where
  inner : List (Point α)
  outer : List (Point α)
  /-- The ends of the gates, two for each. -/
  checkpoints : List (Point α)

namespace Point

variable {α : Type}

/-- Coordinates taken two by two. A last one without partner is dropped. -/
def pairUp : List α → List (Point α)
  | x :: y :: rest => ⟨x, y⟩ :: pairUp rest
  | _ => []

/-- The points of a flat list `[x₀, y₀, x₁, y₁, …]`, which must have an even length. -/
def ofFlat (buffer : Buffer) (coords : List α) : Except (TrackError α) (List (Point α)) :=
  if coords.length % 2 == 0 then .ok (pairUp coords)
  else .error (.oddCoordinates buffer coords.length)

end Point

namespace Segment

variable {α : Type}

/-- The segments from `a` through further points and back to `start`. -/
def closing (start : Point α) : Point α → List (Point α) → List (Segment α)
  | a, [] => [⟨a, start⟩]
  | a, b :: rest => ⟨a, b⟩ :: closing start b rest

/-- Points taken two by two as the ends of segments. A last one without partner is dropped. -/
def pairUp : List (Point α) → List (Segment α)
  | a :: b :: rest => ⟨a, b⟩ :: pairUp rest
  | _ => []

end Segment

namespace Ring

variable {α : Type}

/-- The closed ring through at least two points. -/
def close (ring : Ring) : List (Point α) → Except (TrackError α) (List (Segment α))
  | a :: b :: rest => .ok (Segment.closing a a (b :: rest))
  | points => .error (.tooFewPoints ring points.length)

end Ring

namespace Layout

variable {α : Type}

/-- The layout of three flat lists of coordinates. -/
def ofFlat (inner outer checkpoints : List α) : Except (TrackError α) (Layout α) := do
  let inner ← Point.ofFlat .innerWall inner
  let outer ← Point.ofFlat .outerWall outer
  let checkpoints ← Point.ofFlat .checkpoints checkpoints
  return ⟨inner, outer, checkpoints⟩

/-- The walls of both rings, the inner one first. -/
def walls (layout : Layout α) : Except (TrackError α) (List (Segment α)) := do
  let inner ← Ring.inner.close layout.inner
  let outer ← Ring.outer.close layout.outer
  return inner ++ outer

/-- The gates in the order in which they are to be crossed. -/
def gates (layout : Layout α) : Except (TrackError α) (List (Segment α)) :=
  if layout.checkpoints.length % 2 == 0 then .ok (Segment.pairUp layout.checkpoints)
  else .error (.unpairedCheckpoint layout.checkpoints.length)

end Layout

end Raceway
