import Raceway.Json.Fault
/-!
# Errors of a track

What can be wrong with the input of a track, and the wording of each error.
-/

namespace Raceway

/-- One of the two closed walls of a track. -/
inductive Ring where
  | inner
  | outer
deriving DecidableEq, Repr

/-- The flat lists of coordinates that are read as points. -/
inductive Buffer where
  | innerWall
  | outerWall
  | checkpoints
  | hitbox
  | rays
deriving DecidableEq, Repr

/-- Why a track or a query is refused; each error carries the offending length, count or value. -/
inductive TrackError (α : Type) where
  | tooFewPoints (ring : Ring) (count : Nat)
  | unpairedCheckpoint (count : Nat)
  | oddCoordinates (buffer : Buffer) (length : Nat)
  | invalidCellSize (cellSize : α)
  | invalidPlayfield (width height : α)
  | gridTooLarge (columns rows : α)
  | malformedHitbox (corners : Nat)
  | badBundle (fault : Json.Fault)

/-- The most tiles that one grid may have. -/
def maxTiles : UInt32 := 4194304

open Decimal (natText)

namespace Ring

def describe : Ring → List Char
  | inner => "inner".toList
  | outer => "outer".toList

end Ring

namespace Buffer

def describe : Buffer → List Char
  | innerWall => "inner wall".toList
  | outerWall => "outer wall".toList
  | checkpoints => "checkpoints".toList
  | hitbox => "hitbox".toList
  | rays => "rays".toList

end Buffer

namespace TrackError

/-- The wording of an error. Numbers are written out in full. -/
def message [Json.NumberText] : TrackError Float → List Char
  | tooFewPoints ring count =>
    ring.describe ++ " wall needs at least 2 points, got ".toList ++ natText count
  | unpairedCheckpoint count =>
    "checkpoint points must come in pairs, got ".toList ++ natText count ++ " points".toList
  | oddCoordinates buffer length =>
    buffer.describe ++ ": coordinate buffer has odd length ".toList ++ natText length
  | invalidCellSize cellSize =>
    "cell size must be finite and > 0, got ".toList ++ Decimal.plain.text cellSize
  | invalidPlayfield width height =>
    "playfield must be finite and non-negative, got ".toList ++
      Decimal.plain.text width ++ " x ".toList ++ Decimal.plain.text height
  | gridTooLarge columns rows =>
    "grid of ".toList ++ Decimal.plain.text columns ++ " x ".toList ++
      Decimal.plain.text rows ++ " chunks exceeds ".toList ++ natText maxTiles.toNat ++
      " chunks; raise cell size".toList
  | malformedHitbox corners =>
    "hitbox needs exactly 4 corners, got ".toList ++ natText corners
  | badBundle fault => "track bundle: ".toList ++ fault.message

end TrackError

end Raceway
