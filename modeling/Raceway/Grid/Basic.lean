import Raceway.Geometry.Rect
import Raceway.Playfield
/-!
# Grids

A grid cuts a playfield into square tiles, row by row, and lists for each tile the walls that
touch it.
-/

namespace Raceway

/-- A wall and its place in the list of all walls, held as a word. -/
structure Wall (α : Type) where
  word : UInt32
  segment : Segment α
deriving DecidableEq, Repr

/-- One square of a grid, with the walls that touch it in ascending order. -/
structure Tile (α : Type) where
  rect : Rect α
  walls : List (Wall α)

/-- The column and row of a tile. -/
structure Cell where
  column : UInt32
  row : UInt32
deriving DecidableEq, Repr

/-- A playfield cut into tiles, row by row from the origin, and all walls. -/
structure Grid (α : Type) where
  originX : α
  originY : α
  cellSize : α
  columns : UInt32
  rows : UInt32
  tiles : Array (Tile α)
  walls : List (Wall α)

namespace Wall

/-- The place of a wall in the list of all walls. -/
def index {α : Type} (wall : Wall α) : Nat :=
  wall.word.toNat

/-- Segments as walls, numbered from 0. -/
def number {α : Type} (segments : List (Segment α)) : List (Wall α) :=
  segments.zipIdx.map fun (segment, index) => ⟨UInt32.ofNat index, segment⟩

end Wall

namespace Tile

variable {α : Type} [Coord α]

/-- The square of a cell of the playfield. -/
@[specialize] def square (field : Playfield α) (cell : Cell) : Rect α :=
  Rect.ofCorner
    (field.originX + Coord.ofWord cell.column * field.cellSize)
    (field.originY + Coord.ofWord cell.row * field.cellSize)
    field.cellSize field.cellSize

/-- Lists the walls that touch the tile, in place of those listed before. -/
@[specialize] def fill (walls : List (Wall α)) (tile : Tile α) : Tile α :=
  { tile with walls := walls.filter fun wall => tile.rect.touches wall.segment }

/-- The tile of a cell, given all walls. -/
@[specialize] def ofCell (field : Playfield α) (walls : List (Wall α)) (cell : Cell) : Tile α :=
  fill walls ⟨square field cell, []⟩

end Tile

namespace Dimensions

/-- All cells, row by row. -/
def cells (size : Dimensions) : Array Cell :=
  (Array.range size.rows.toNat).flatMap fun row =>
    (Array.range size.columns.toNat).map fun column =>
      ⟨UInt32.ofNat column, UInt32.ofNat row⟩

end Dimensions

namespace Grid

variable {α : Type} [Coord α]

/-- The grid without tiles and walls. -/
def empty : Grid α where
  originX := 0
  originY := 0
  cellSize := 1
  columns := 0
  rows := 0
  tiles := #[]
  walls := []

/-- The grid of a playfield that takes a known number of tiles. -/
@[specialize] def ofDimensions (field : Playfield α) (size : Dimensions)
    (segments : List (Segment α)) : Grid α :=
  let walls := Wall.number segments
  { originX := field.originX
    originY := field.originY
    cellSize := field.cellSize
    columns := size.columns
    rows := size.rows
    tiles := size.cells.map (Tile.ofCell field walls)
    walls := walls }

/-- Cuts a playfield into tiles and assigns every wall to the tiles that it touches. -/
@[specialize] def build (field : Playfield α) (segments : List (Segment α)) :
    Except (TrackError α) (Grid α) := do
  let size ← field.dimensions
  return ofDimensions field size segments

/-- The number of pairs of a tile and a wall that touches it. -/
def wallRefs (grid : Grid α) : Nat :=
  grid.tiles.foldl (fun total tile => total + tile.walls.length) 0

/-- The segment of the wall at a place, none behind the last wall. -/
def wall? (grid : Grid α) (word : UInt32) : Option (Segment α) :=
  grid.walls[word.toNat]?.map Wall.segment

/-- The walls of a tile, none where there is no such tile. -/
def tileWalls (grid : Grid α) (index : Nat) : List (Wall α) :=
  match grid.tiles[index]? with
  | some tile => tile.walls
  | none => []

/-- The cell that a point lies in. Points that are not finite lie in none. -/
@[specialize] def cellOf? (grid : Grid α) (p : Point α) : Option Cell :=
  if !p.isFinite || grid.tiles.isEmpty then none
  else
    let column := Coord.floor ((p.x - grid.originX) / grid.cellSize)
    let row := Coord.floor ((p.y - grid.originY) / grid.cellSize)
    if decide (column < 0) || decide (row < 0) || decide (Coord.ofWord grid.columns ≤ column) ||
        decide (Coord.ofWord grid.rows ≤ row) then none
    else some ⟨Coord.toWord column, Coord.toWord row⟩

/-- The place of a cell in the row-by-row order, as a word. -/
def place (grid : Grid α) (cell : Cell) : UInt32 :=
  cell.row * grid.columns + cell.column

/-- The place of the tile that a point lies in. -/
@[specialize] def tileOf? (grid : Grid α) (p : Point α) : Option Nat :=
  (grid.cellOf? p).map fun cell => (grid.place cell).toNat

end Grid

end Raceway
