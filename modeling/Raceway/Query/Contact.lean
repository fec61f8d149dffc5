import Raceway.Hitbox
import Raceway.Query.Ray
/-!
# Contacts

Whether a hitbox touches a wall of the tile that its racer is in.
-/

namespace Raceway.Grid

variable {α : Type} [Coord α]

/-- Whether a side of the hitbox meets one of some walls. -/
@[specialize] def touchesAny (box : Hitbox α) (walls : List (Wall α)) : Bool :=
  walls.any fun wall => box.crosses wall.segment

/-- Tests a hitbox against the walls of one tile; each wall is tested against four sides. -/
@[specialize] def contact (grid : Grid α) (place : Option Nat) (box : Hitbox α) : Searched Bool :=
  let walls := grid.localWalls place
  ⟨touchesAny box walls, ⟨walls.length * 4, 0⟩⟩

end Raceway.Grid
