import Raceway.Proofs.Progress
import Raceway.Proofs.Query.FirstNearest
import Raceway.Proofs.Query.HitboxContact
/-!
# Reports about finite coordinates

No coordinate of a query or a course is looked at before it is used, but whatever is not finite
never meets anything.  So a query from nowhere sees and touches nothing, and a course reports as if
the walls that are not finite were not listed at all.
-/

namespace Raceway

namespace Segment

/-- Whether both ends of a segment are finite. -/
def isFinite (s : Segment Float) : Bool :=
  s.a.isFinite && s.b.isFinite

variable {s t : Segment Float}

theorem isFinite_of_intersect_eq_some {p : Point Float} (h : s.intersect t = some p) :
    s.isFinite = true ∧ t.isFinite = true := by
  obtain ⟨hs, ht⟩ := ends_of_intersect h
  exact ⟨Bool.and_eq_true_iff.mpr hs, Bool.and_eq_true_iff.mpr ht⟩

theorem isFinite_of_intersects (h : s.intersects t = true) :
    s.isFinite = true ∧ t.isFinite = true := by
  obtain ⟨p, hp⟩ := Option.isSome_iff_exists.mp h
  exact isFinite_of_intersect_eq_some hp

theorem intersect_eq_none_left (h : s.isFinite = false) (t : Segment Float) :
    s.intersect t = none := by
  rw [Option.eq_none_iff_forall_ne_some]
  intro p hp
  rw [(isFinite_of_intersect_eq_some hp).1] at h
  cases h

theorem intersect_eq_none_right (s : Segment Float) (h : t.isFinite = false) :
    s.intersect t = none := by
  rw [Option.eq_none_iff_forall_ne_some]
  intro p hp
  rw [(isFinite_of_intersect_eq_some hp).2] at h
  cases h

end Segment

namespace Hitbox

variable {box : Hitbox Float} {s : Segment Float}

theorem isFinite_of_crosses (h : box.crosses s = true) :
    s.isFinite = true ∧ ∃ corner ∈ box.corners, corner.isFinite = true := by
  obtain ⟨edge, hedge, hmeet⟩ := crosses_iff.mp h
  obtain ⟨hends, hs⟩ := Segment.isFinite_of_intersects hmeet
  exact ⟨hs, edge.a, (ends_of_mem_edges hedge).1, (Bool.and_eq_true_iff.mp hends).1⟩

theorem crosses_of_not_finite (hcorners : ∀ corner ∈ box.corners, corner.isFinite = false)
    (s : Segment Float) : box.crosses s = false := by
  rw [Bool.eq_false_iff]
  intro h
  obtain ⟨-, corner, hcorner, hfinite⟩ := isFinite_of_crosses h
  rw [hcorners corner hcorner] at hfinite
  cases hfinite

end Hitbox

/-! ## The finite walls of a course -/

/-- The walls of a list whose coordinates are finite. -/
def finiteWalls (walls : List (Wall Float)) : List (Wall Float) :=
  walls.filter fun wall => wall.segment.isFinite

/-- The grid with only its finite walls listed by the tiles. -/
def Grid.onlyFinite (grid : Grid Float) : Grid Float :=
  { grid with tiles := grid.tiles.map fun tile => { tile with walls := finiteWalls tile.walls } }

/-- The course with only its finite walls listed by the tiles. -/
def Course.onlyFinite (course : Course Float) : Course Float :=
  { course with grid := course.grid.onlyFinite }

@[simp] theorem Strike.nearest_finiteWalls (ray : Segment Float) (walls : List (Wall Float)) :
    nearest ray (finiteWalls walls) = nearest ray walls := by
  rw [nearest, nearest, finiteWalls, List.filterMap_filter]
  congr 2
  funext wall
  split_ifs with hfinite
  · rfl
  · exact (on?_eq_none_iff.mpr
      (Segment.intersect_eq_none_right ray (Bool.eq_false_iff.mpr hfinite))).symm

@[simp] theorem Hitbox.touchesAny_finiteWalls (box : Hitbox Float) (walls : List (Wall Float)) :
    Grid.touchesAny box (finiteWalls walls) = Grid.touchesAny box walls := by
  rw [Grid.touchesAny, Grid.touchesAny, finiteWalls, List.any_filter]
  congr 1
  funext wall
  cases hcross : box.crosses wall.segment with
  | false => rw [Bool.and_false]
  | true => rw [(isFinite_of_crosses hcross).1, Bool.and_true]

namespace Grid

variable (grid : Grid Float)

@[simp]
theorem onlyFinite_tileOf? (p : Point Float) : grid.onlyFinite.tileOf? p = grid.tileOf? p := by
  have hempty : grid.onlyFinite.tiles.isEmpty = grid.tiles.isEmpty := by
    rw [onlyFinite, Array.isEmpty, Array.isEmpty, Array.size_map]
  rw [tileOf?, tileOf?, cellOf?, cellOf?, hempty]
  rfl

@[simp] theorem onlyFinite_localWalls (place : Option Nat) :
    grid.onlyFinite.localWalls place = finiteWalls (grid.localWalls place) := by
  cases place with
  | none => rfl
  | some i =>
      simp only [localWalls, tileWalls, onlyFinite, Array.getElem?_map]
      cases grid.tiles[i]? <;> rfl

@[simp] theorem onlyFinite_passedWalls (ray : Segment Float) :
    grid.onlyFinite.passedWalls ray = finiteWalls (grid.passedWalls ray) := by
  rw [passedWalls_eq, passedWalls_eq, onlyFinite, Array.toList_map, List.filter_map,
    List.flatMap_map, finiteWalls, List.filter_flatMap]
  rfl

@[simp] theorem onlyFinite_probe (place : Option Nat) (origin target : Point Float) :
    (grid.onlyFinite.probe place origin target).result =
      (grid.probe place origin target).result := by
  simp [probe, castRay_result]

@[simp] theorem onlyFinite_contact (place : Option Nat) (box : Hitbox Float) :
    (grid.onlyFinite.contact place box).result = (grid.contact place box).result := by
  simp [contact]

/-! ## Queries with coordinates that are not finite -/

theorem tileOf?_of_not_finite {p : Point Float} (hp : p.isFinite = false) :
    grid.tileOf? p = none := by
  rw [tileOf?, cellOf?, hp]
  rfl

theorem probe_of_not_finite (place : Option Nat) {origin target : Point Float}
    (h : (⟨origin, target⟩ : Segment Float).isFinite = false) :
    (grid.probe place origin target).result = RayHit.miss := by
  have hnone : (grid.castRay place origin target).result = none :=
    castRay_eq_none_iff.mpr ⟨fun wall _ => Segment.intersect_eq_none_left h wall.segment,
      fun wall _ => Segment.intersect_eq_none_left h wall.segment⟩
  rw [probe, hnone]
  rfl

end Grid

attribute [ext] Outcome

namespace Query

variable (query : Query) (course : Course Float) (reset : Bool) (p : Progress)

theorem run_rays : (query.run course reset p).outcome.rays =
    query.targets.map fun target =>
      (course.grid.probe (course.grid.tileOf? query.position) query.position target).result :=
  List.map_map

theorem run_playerHit : (query.run course reset p).outcome.playerHit =
    (course.grid.contact (course.grid.tileOf? query.position) query.hitbox).result := rfl

theorem run_onlyFinite :
    (query.run course.onlyFinite reset p).outcome = (query.run course reset p).outcome ∧
      (query.run course.onlyFinite reset p).progress = (query.run course reset p).progress := by
  have hrays : (query.run course.onlyFinite reset p).outcome.rays =
      (query.run course reset p).outcome.rays := by
    simp [run_rays, Course.onlyFinite]
  have hhit : (query.run course.onlyFinite reset p).outcome.playerHit =
      (query.run course reset p).outcome.playerHit := by
    simp [run_playerHit, Course.onlyFinite]
  -- The gates are tested alike once the hitbox has been.
  have hbefore : query.beforeGate course.onlyFinite reset p = query.beforeGate course reset p :=
    congrArg (p.contacted · reset) hhit
  have hgate := query.crossGate_beforeGate course.onlyFinite reset p
  rw [hbefore] at hgate
  obtain ⟨hprogress, hcross⟩ :=
    Prod.mk.inj ((query.crossGate_beforeGate course reset p).symm.trans hgate)
  exact ⟨Outcome.ext hrays hhit hcross.symm, hprogress.symm⟩

variable {query course reset p}

theorem rays_of_position_not_finite (h : query.position.isFinite = false) :
    (query.run course reset p).outcome.rays = query.targets.map fun _ => RayHit.miss := by
  rw [run_rays]
  apply List.map_congr_left
  intro target _
  apply Grid.probe_of_not_finite
  rw [Segment.isFinite, h, Bool.false_and]

theorem ray_of_target_not_finite {i : Nat} {target : Point Float}
    (htarget : query.targets[i]? = some target) (h : target.isFinite = false) :
    (query.run course reset p).outcome.rays[i]? = some RayHit.miss := by
  rw [run_rays, List.getElem?_map, htarget, Option.map_some, Grid.probe_of_not_finite]
  rw [Segment.isFinite, h, Bool.and_false]

/-- A racer that is nowhere is in no tile, so there are no walls to touch. -/
theorem playerHit_of_position_not_finite (h : query.position.isFinite = false) :
    (query.run course reset p).outcome.playerHit = false := by
  rw [run_playerHit, Grid.tileOf?_of_not_finite course.grid h]
  rfl

theorem playerHit_of_hitbox_not_finite
    (h : ∀ corner ∈ query.hitbox.corners, corner.isFinite = false) :
    (query.run course reset p).outcome.playerHit = false := by
  rw [run_playerHit, Grid.contact, Grid.touchesAny, List.any_eq_false]
  intro wall _
  rw [Hitbox.crosses_of_not_finite h]
  exact Bool.false_ne_true

theorem gate_of_checkpointHit (h : (query.run course reset p).outcome.checkpointHit = true) :
    ∃ gate, course.gates[((query.beforeGate course reset p).settle
        course.gates.length).cursor.toNat]? = some gate ∧
      gate.isFinite = true ∧ query.hitbox.crosses gate = true := by
  have hcross : ((query.beforeGate course reset p).crossGate course.gates query.hitbox).2 =
      true := h
  obtain ⟨gate, hgate, hmeet⟩ := (Progress.crossGate_iff_settle query.hitbox).mp hcross
  exact ⟨gate, hgate, (Hitbox.isFinite_of_crosses hmeet).1, hmeet⟩

theorem checkpointHit_of_hitbox_not_finite
    (h : ∀ corner ∈ query.hitbox.corners, corner.isFinite = false) :
    (query.run course reset p).outcome.checkpointHit = false := by
  rw [Bool.eq_false_iff]
  intro hcross
  obtain ⟨gate, -, -, hmeet⟩ := gate_of_checkpointHit hcross
  rw [Hitbox.crosses_of_not_finite h] at hmeet
  cases hmeet

/-- Only what is finite is ever hit.  Segments that meet are finite, and neither the meeting point
nor its squared distance is NaN.  Hence a query from a position that is not finite sees and touches
no wall, a ray to such a target misses, walls that are not finite might as well not be there, a
gate that is crossed is finite, and a hitbox without a finite corner meets nothing. -/
theorem reports_only_finite :
    (∀ (s t : Segment Float) (q : Point Float), s.intersect t = some q →
      (s.isFinite = true ∧ t.isFinite = true) ∧ (q.x.isNaN = false ∧ q.y.isNaN = false) ∧
        (s.a.distanceSquared q).isNaN = false) ∧
    ∀ (query : Query) (course : Course Float) (reset : Bool) (p : Progress),
      let outcome := (query.run course reset p).outcome
      (query.position.isFinite = false →
        outcome.rays = query.targets.map (fun _ => RayHit.miss) ∧ outcome.playerHit = false) ∧
      (∀ (i : Nat) (target : Point Float), query.targets[i]? = some target →
        target.isFinite = false →
        outcome.rays[i]? = some RayHit.miss) ∧
      ((query.run course.onlyFinite reset p).outcome = outcome ∧
        (query.run course.onlyFinite reset p).progress = (query.run course reset p).progress) ∧
      (outcome.checkpointHit = true →
        ∃ gate, course.gates[((query.beforeGate course reset p).settle
            course.gates.length).cursor.toNat]? = some gate ∧
          gate.isFinite = true ∧ query.hitbox.crosses gate = true) ∧
      ((∀ corner ∈ query.hitbox.corners, corner.isFinite = false) →
        outcome.playerHit = false ∧ outcome.checkpointHit = false) := by
  refine ⟨fun s t q hmeet => ?_, fun query course reset p => ⟨fun h => ?_, fun i target => ?_,
    query.run_onlyFinite course reset p, gate_of_checkpointHit, fun h => ?_⟩⟩
  · exact ⟨Segment.isFinite_of_intersect_eq_some hmeet, Segment.point_of_intersect hmeet,
      (Double.nonneg_iff.mp (Segment.distanceSquared_of_intersect hmeet)).1⟩
  · exact ⟨rays_of_position_not_finite h, playerHit_of_position_not_finite h⟩
  · exact ray_of_target_not_finite
  · exact ⟨playerHit_of_hitbox_not_finite h, checkpointHit_of_hitbox_not_finite h⟩

/-- A course of one tile, with a wall that never ends and a gate in front of it. -/
def openEnded : Course Float :=
  ⟨⟨0, 0, 10, 1, 1, #[⟨Rect.ofCorner 0 0 10 10, [⟨0, ⟨⟨8, 5⟩, Point.atInfinity⟩⟩]⟩], []⟩,
    [⟨⟨5, 0⟩, ⟨5, 10⟩⟩]⟩

/-- A racer that lost its place, with a hitbox across a gate; its second ray has no end. -/
def adrift : Query where
  targets := [⟨9, 5⟩, Point.atInfinity]
  position := ⟨5, Float.ofBits 0x7ff8000000000000⟩
  hitbox := ⟨⟨4, 4⟩, ⟨6, 4⟩, ⟨6, 6⟩, ⟨4, 6⟩⟩

/-- A racer without place and shape. -/
def scattered : Query :=
  { adrift with hitbox := ⟨Point.atInfinity, Point.atInfinity, Point.atInfinity,
    Point.atInfinity⟩ }

theorem reports_only_finite_adrift :
    (∃ q, (⟨⟨4, 4⟩, ⟨6, 4⟩⟩ : Segment Float).intersect ⟨⟨5, 0⟩, ⟨5, 10⟩⟩ = some q ∧
      q.x.isNaN = false ∧ q.y.isNaN = false) ∧
    adrift.position.isFinite = false ∧
    (adrift.run openEnded false .start).outcome.rays = [RayHit.miss, RayHit.miss] ∧
    (adrift.run openEnded false .start).outcome.playerHit = false ∧
    (adrift.run openEnded false .start).outcome.checkpointHit = true ∧
    (∃ gate, openEnded.gates[((adrift.beforeGate openEnded false .start).settle
        openEnded.gates.length).cursor.toNat]? = some gate ∧
      gate.isFinite = true ∧ adrift.hitbox.crosses gate = true) ∧
    (adrift.run openEnded false .start).outcome.rays[1]? = some RayHit.miss ∧
    (∀ corner ∈ scattered.hitbox.corners, corner.isFinite = false) ∧
    (scattered.run openEnded false .start).outcome.checkpointHit = false := by
  obtain ⟨hmeets, hreports⟩ := reports_only_finite
  obtain ⟨q, hq⟩ : ∃ q, (⟨⟨4, 4⟩, ⟨6, 4⟩⟩ : Segment Float).intersect ⟨⟨5, 0⟩, ⟨5, 10⟩⟩ = some q :=
    Option.isSome_iff_exists.mp (by decide +kernel)
  have hposition : adrift.position.isFinite = false := by decide +kernel
  have hcross : (adrift.run openEnded false .start).outcome.checkpointHit = true := by
    decide +kernel
  have hcorners : ∀ corner ∈ scattered.hitbox.corners, corner.isFinite = false := by
    decide +kernel
  obtain ⟨hlost, htarget, -, hgate, -⟩ := hreports adrift openEnded false .start
  obtain ⟨-, -, -, -, hshape⟩ := hreports scattered openEnded false .start
  exact ⟨⟨q, hq, (hmeets _ _ q hq).2.1⟩, hposition, (hlost hposition).1, (hlost hposition).2,
    hcross, hgate hcross, htarget 1 Point.atInfinity rfl (by decide +kernel), hcorners,
    (hshape hcorners).2⟩

end Query

end Raceway
