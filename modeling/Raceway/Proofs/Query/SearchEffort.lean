import Raceway.Proofs.Query.Nearest
import Raceway.Query.Step
/-!
# The effort of a query

What a query counts can be told from its course beforehand.  Every ray is tested against the walls
of the tile that it starts in.  If it meets none of them, it is also tested against the walls of
the tiles on its way.  The hitbox is tested against the walls of the first tile once more, with
four sides.
-/

namespace Raceway

namespace Grid

section

variable {α : Type} [Coord α]

/-- Whether a ray has to go beyond the tile that it starts in: it meets none of the walls there. -/
def goesOn (grid : Grid α) (place : Option Nat) (ray : Segment α) : Bool :=
  (grid.localWalls place).all fun wall => !ray.intersects wall.segment

/-- How many walls are listed by the tiles that a ray ends in or whose border it crosses. -/
def wallsOnWay (grid : Grid α) (ray : Segment α) : Nat :=
  ((grid.tiles.toList.filter fun tile =>
    tile.rect.contains ray.b || tile.rect.crossesBoundary ray).map fun tile =>
      tile.walls.length).sum

theorem goesOn_iff {grid : Grid α} {place : Option Nat} {ray : Segment α} :
    grid.goesOn place ray = true ↔ Strike.nearest ray (grid.localWalls place) = none := by
  rw [Strike.nearest_eq_none_iff, goesOn, List.all_eq_true]
  simp only [Segment.intersects, Bool.not_eq_true', Option.isSome_eq_false_iff,
    Option.isNone_iff_eq_none]

theorem length_passedWalls (grid : Grid α) (ray : Segment α) :
    (grid.passedWalls ray).length = grid.wallsOnWay ray := by
  rw [passedWalls, wallsOnWay]
  induction grid.tiles.toList with
  | nil => rfl
  | cons tile tiles ih =>
      rw [List.flatMap_cons, List.length_append, ih, List.filter_cons]
      cases htile : tile.rect.contains ray.b || tile.rect.crossesBoundary ray with
      | false => rw [Bool.and_false]; exact Nat.zero_add _
      | true =>
          rw [Bool.and_true, if_pos rfl, List.map_cons, List.sum_cons]
          cases hwalls : tile.walls <;> rfl

theorem castRay_effort (grid : Grid α) (place : Option Nat) (origin target : Point α) :
    (grid.castRay place origin target).effort =
      if grid.goesOn place ⟨origin, target⟩ then
        ⟨(grid.localWalls place).length + grid.wallsOnWay ⟨origin, target⟩, 1⟩
      else ⟨(grid.localWalls place).length, 0⟩ := by
  rw [castRay]
  cases hnear : Strike.nearest ⟨origin, target⟩ (grid.localWalls place) with
  | none => rw [if_pos (goesOn_iff.mpr hnear), ← length_passedWalls]
  | some strike =>
      rw [if_neg]
      rw [goesOn_iff, hnear]
      exact Option.some_ne_none strike

end

variable (grid : Grid Float) (place : Option Nat) (origin : Point Float)

/-- The rays to some targets that have to go beyond the tile that they start in. -/
def raysGoingOn (targets : List (Point Float)) : List (Segment Float) :=
  (targets.map (Segment.mk origin)).filter (grid.goesOn place)

theorem raysGoingOn_cons (target : Point Float) (targets : List (Point Float)) :
    grid.raysGoingOn place origin (target :: targets) =
      if grid.goesOn place ⟨origin, target⟩ then
        ⟨origin, target⟩ :: grid.raysGoingOn place origin targets
      else grid.raysGoingOn place origin targets := by
  rw [raysGoingOn, List.map_cons, List.filter_cons, ← raysGoingOn]

theorem foldl_add_effort (targets : List (Point Float)) (before : Effort) :
    ((targets.map (grid.probe place origin)).map Searched.effort).foldl Effort.add before =
      ⟨before.wallTests + (targets.length * (grid.localWalls place).length +
          ((grid.raysGoingOn place origin targets).map grid.wallsOnWay).sum),
        before.fallbackScans + (grid.raysGoingOn place origin targets).length⟩ := by
  induction targets generalizing before with
  | nil => simp [raysGoingOn]
  | cons target targets ih =>
      have hprobe : (grid.probe place origin target).effort =
          (grid.castRay place origin target).effort := rfl
      rw [List.map_cons, List.map_cons, List.foldl_cons, ih, hprobe, castRay_effort,
        raysGoingOn_cons, List.length_cons, Effort.mk.injEq]
      split_ifs with hgoes
      · simp only [Effort.add, List.map_cons, List.sum_cons, List.length_cons]
        exact ⟨by ring, by ring⟩
      · simp only [Effort.add]
        exact ⟨by ring, by ring⟩

theorem fan_effort (targets : List (Point Float)) :
    (grid.fan place origin targets).effort =
      ⟨targets.length * (grid.localWalls place).length +
          ((grid.raysGoingOn place origin targets).map grid.wallsOnWay).sum,
        (grid.raysGoingOn place origin targets).length⟩ := by
  rw [fan, foldl_add_effort, Effort.none, Nat.zero_add, Nat.zero_add]

end Grid

namespace Query

variable (query : Query) (grid : Grid Float)

/-- The rays of a query that have to go beyond the tile that they start in. -/
def raysGoingOn : List (Segment Float) :=
  grid.raysGoingOn (grid.tileOf? query.position) query.position query.targets

/-- How many walls the tile of a query lists. -/
def wallsAround : Nat :=
  (grid.localWalls (grid.tileOf? query.position)).length

/-- The tests of a query: each ray against the walls of the first tile, those that go on against
the walls on their way, and four sides of the hitbox against the walls of the first tile. -/
def wallTests : Nat :=
  query.targets.length * query.wallsAround grid +
    ((query.raysGoingOn grid).map grid.wallsOnWay).sum + 4 * query.wallsAround grid

theorem run_effort (course : Course Float) (reset : Bool) (p : Progress) :
    (query.run course reset p).effort =
      ⟨query.wallTests course.grid, (query.raysGoingOn course.grid).length⟩ := by
  have hrun : (query.run course reset p).effort =
      (course.grid.fan (course.grid.tileOf? query.position) query.position query.targets).effort +
        (course.grid.contact (course.grid.tileOf? query.position) query.hitbox).effort := rfl
  rw [hrun, Grid.fan_effort, wallTests, Nat.mul_comm 4]
  rfl

@[simp] theorem run_rays_length (course : Course Float) (reset : Bool) (p : Progress) :
    (query.run course reset p).outcome.rays.length = query.targets.length := by
  have hrays : (query.run course reset p).outcome.rays =
      (query.targets.map (course.grid.probe (course.grid.tileOf? query.position)
        query.position)).map Searched.result := rfl
  rw [hrays, List.length_map, List.length_map]

end Query

end Raceway
