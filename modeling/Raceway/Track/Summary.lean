import Raceway.Track.Basic
/-!
# Summaries

The shape of a loaded grid: its size, and the tiles that have walls.
-/

namespace Raceway

/-- A tile that has walls. -/
structure TileSummary where
  index : Nat
  corner : Point Float
  walls : List Nat

/-- The shape of the grid of a track. -/
structure Summary where
  loaded : Bool
  columns : UInt32
  rows : UInt32
  cellSize : Float
  wallCount : Nat
  gateCount : Nat
  tiles : List TileSummary

namespace TileSummary

/-- The summary of the tile with this index, if it has walls. -/
def ofTile? (tile : Tile Float) (index : Nat) : Option TileSummary :=
  if tile.walls.isEmpty then none
  else some ⟨index, tile.rect.min, tile.walls.map Wall.index⟩

open Json in
def write [NumberText] (t : TileSummary) : List Char :=
  writeRecord
    [("index", writeNatural t.index), ("x", writeDouble t.corner.x),
     ("y", writeDouble t.corner.y), ("walls", writeList (t.walls.map writeNatural))]

end TileSummary

namespace Summary

def ofTrack (track : Track) : Summary where
  loaded := track.loaded
  columns := track.course.grid.columns
  rows := track.course.grid.rows
  cellSize := track.course.grid.cellSize
  wallCount := track.course.grid.walls.length
  gateCount := track.course.gates.length
  tiles := track.course.grid.tiles.toList.zipIdx.filterMap fun (tile, index) =>
    TileSummary.ofTile? tile index

open Json in
/-- The JSON text of a summary. -/
def write [NumberText] (s : Summary) : List Char :=
  writeRecord
    [("built", writeBoolean s.loaded), ("chunks_x", writeNatural s.columns.toNat),
     ("chunks_y", writeNatural s.rows.toNat), ("cell_size", writeDouble s.cellSize),
     ("wall_count", writeNatural s.wallCount), ("gate_count", writeNatural s.gateCount),
     ("chunks", writeList (s.tiles.map TileSummary.write))]

end Summary

end Raceway
