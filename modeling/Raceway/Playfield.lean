import Raceway.Coord
import Raceway.TrackError
/-!
# Playfields

The box that a track lies in and the size of the tiles it is cut into, together with the rule
for collisions.
-/

namespace Raceway

/-- The box at an origin that a grid of square cells covers. -/
structure Playfield (α : Type) where
  originX : α
  originY : α
  width : α
  height : α
  cellSize : α

/-- A playfield, and whether a collision sends a racer back to the first gate. -/
structure Settings (α : Type) extends Playfield α where
  resetOnCollision : Bool

/-- The number of tiles in a row and in a column of a grid. -/
structure Dimensions where
  columns : UInt32
  rows : UInt32
deriving DecidableEq, Repr

namespace Playfield

variable {α : Type} [Coord α]

/-- How many columns and rows of tiles the playfield takes: per axis one more than the whole
number of cells in it. Both are counted as coordinates first, and refused if the grid would have
more than `maxTiles` tiles. -/
def dimensions (field : Playfield α) : Except (TrackError α) Dimensions :=
  let columns := Coord.floor (field.width / field.cellSize) + 1
  let rows := Coord.floor (field.height / field.cellSize) + 1
  let finite := Coord.isFinite columns && Coord.isFinite rows
  if !finite || decide (Coord.ofWord maxTiles < columns * rows) then
    .error (.gridTooLarge columns rows)
  else
    let counts : Dimensions := ⟨Coord.toWord columns, Coord.toWord rows⟩
    if counts.columns.toNat * counts.rows.toNat ≤ maxTiles.toNat then .ok counts
    else .error (.gridTooLarge columns rows)

/-- Accepts a playfield with a finite positive cell size, finite origin, finite extents that are
not negative, and a grid that is not too large. -/
def validate (field : Playfield α) : Except (TrackError α) Unit :=
  if !Coord.isFinite field.cellSize || decide (field.cellSize ≤ 0) then
    .error (.invalidCellSize field.cellSize)
  else if !([field.originX, field.originY, field.width, field.height].all Coord.isFinite &&
      decide (0 ≤ field.width) && decide (0 ≤ field.height)) then
    .error (.invalidPlayfield field.width field.height)
  else field.dimensions.map fun _ => ()

end Playfield

namespace Settings

variable {α : Type} [Coord α]

/-- What holds where nothing is said: a box of 1200 by 800 at the origin with cells of 100, and
collisions that reset. -/
def standard : Settings α where
  originX := 0
  originY := 0
  width := Coord.ofWord 1200
  height := Coord.ofWord 800
  cellSize := Coord.ofWord 100
  resetOnCollision := true

end Settings

end Raceway
