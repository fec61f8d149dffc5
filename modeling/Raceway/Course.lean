import Raceway.Grid.Basic
import Raceway.Layout
/-!
# Courses

What is left of a layout when it has been loaded: the grid of its walls and the gates.
-/

namespace Raceway

/-- The walls of a track in a grid, and its gates in order. -/
structure Course (α : Type) where
  grid : Grid α
  gates : List (Segment α)

namespace Course

variable {α : Type} [Coord α]

/-- The course without walls and gates. -/
def empty : Course α := ⟨Grid.empty, []⟩

/-- Lays out a course. The playfield is looked at first, then the rings, then the gates. -/
def lay (layout : Layout α) (field : Playfield α) : Except (TrackError α) (Course α) := do
  field.validate
  let walls ← layout.walls
  let gates ← layout.gates
  let grid ← Grid.build field walls
  return ⟨grid, gates⟩

end Course

end Raceway
