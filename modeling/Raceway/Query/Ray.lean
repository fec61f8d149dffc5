import Raceway.Grid.Basic
/-!
# Rays

A ray looks for the nearest wall between an origin and a target. The tile of the origin is
searched first; only if none of its walls is struck, the tiles that the ray passes are searched.
-/

namespace Raceway

/-- Where a ray strikes a wall, and the squared distance of that point from its origin. -/
structure Strike (α : Type) where
  point : Point α
  distanceSquared : α
deriving DecidableEq, Repr

/-- How much work a search took: segments tested against walls, and searches that had to go
beyond the first tile. -/
structure Effort where
  wallTests : Nat
  fallbackScans : Nat
deriving DecidableEq, Repr

namespace Effort

def none : Effort := ⟨0, 0⟩

def add (a b : Effort) : Effort :=
  ⟨a.wallTests + b.wallTests, a.fallbackScans + b.fallbackScans⟩

instance : Add Effort := ⟨add⟩

end Effort

/-- The result of a search together with its effort. -/
structure Searched (β : Type) where
  result : β
  effort : Effort

namespace Strike

variable {α : Type} [Coord α]

/-- Where the ray strikes a segment, if it does. -/
@[specialize] def on? (ray s : Segment α) : Option (Strike α) :=
  (ray.intersect s).map fun point => ⟨point, ray.a.distanceSquared point⟩

/-- The first strike of two, unless the second is strictly nearer. -/
@[specialize] def nearer (best : Option (Strike α)) (strike : Strike α) : Option (Strike α) :=
  match best with
  | none => some strike
  | some first =>
    if strike.distanceSquared < first.distanceSquared then some strike else best

/-- The nearest strike on the walls of a list, the first of several at the same distance. -/
@[specialize] def nearest (ray : Segment α) (walls : List (Wall α)) : Option (Strike α) :=
  (walls.filterMap fun wall => on? ray wall.segment).foldl nearer none

end Strike

namespace Grid

variable {α : Type} [Coord α]

/-- The walls of the tile at a place, none without a place. -/
def localWalls (grid : Grid α) (place : Option Nat) : List (Wall α) :=
  match place with
  | some index => grid.tileWalls index
  | none => []

/-- The walls of all tiles that the ray ends in or whose border it crosses, tile by tile. -/
@[specialize] def passedWalls (grid : Grid α) (ray : Segment α) : List (Wall α) :=
  grid.tiles.toList.flatMap fun tile =>
    if !tile.walls.isEmpty && (tile.rect.contains ray.b || tile.rect.crossesBoundary ray) then
      tile.walls
    else []

/-- Casts a ray from the tile at a place. -/
@[specialize] def castRay (grid : Grid α) (place : Option Nat) (origin target : Point α) :
    Searched (Option (Strike α)) :=
  let ray : Segment α := ⟨origin, target⟩
  let near := grid.localWalls place
  match Strike.nearest ray near with
  | some strike => ⟨some strike, ⟨near.length, 0⟩⟩
  | none =>
    let far := grid.passedWalls ray
    ⟨Strike.nearest ray far, ⟨near.length + far.length, 1⟩⟩

end Grid

/-- What a ray reports: the point struck and its distance, or a point at infinity. -/
structure RayHit where
  point : Point Float
  distance : Float

namespace RayHit

/-- The report of a ray that strikes nothing. -/
def miss : RayHit :=
  ⟨Point.atInfinity, Float.ofBits 0x7ff0000000000000⟩

def isHit (hit : RayHit) : Bool :=
  hit.distance.isFinite

def ofStrike? : Option (Strike Float) → RayHit
  | some strike => ⟨strike.point, strike.distanceSquared.sqrt⟩
  | none => miss

end RayHit

namespace Grid

/-- Casts one ray and reports it. -/
def probe (grid : Grid Float) (place : Option Nat) (origin target : Point Float) :
    Searched RayHit :=
  let search := grid.castRay place origin target
  ⟨RayHit.ofStrike? search.result, search.effort⟩

/-- Casts one ray to each target. -/
def fan (grid : Grid Float) (place : Option Nat) (origin : Point Float)
    (targets : List (Point Float)) : Searched (List RayHit) :=
  let probes := targets.map (grid.probe place origin)
  ⟨probes.map Searched.result, (probes.map Searched.effort).foldl Effort.add Effort.none⟩

end Grid

end Raceway
