import Raceway.Layout
import Raceway.Proofs.Double.Magnitude
import Raceway.Proofs.Double.Root
import Raceway.Proofs.Query.FirstNearest
/-!
# Full reports

A report of a ray is meant to show by its distance alone whether a wall was met.  The distance is
the root of a sum of squares, and squares of large numbers are infinite.  So a report shows what
was met exactly when one of the squared distances is finite, as all of them are for a ray whose ends
have coordinates up to `2 ^ 508`.
-/

namespace Raceway

/-! ## Squared distances -/

theorem Point.isFinite_of_distanceSquared {p q : Point Float}
    (h : (p.distanceSquared q).isFinite = true) : q.isFinite = true := by
  obtain ⟨hx, hy⟩ := Double.isFinite_of_add h
  exact Bool.and_eq_true_iff.mpr ⟨(Double.isFinite_of_sub (Double.isFinite_of_mul hx).1).1,
    (Double.isFinite_of_sub (Double.isFinite_of_mul hy).1).1⟩

/-- Whether the coordinates of a point are finite and not larger than a power of two. -/
def Point.Within (n : ℕ) (p : Point Float) : Prop :=
  Double.Within n p.x ∧ Double.Within n p.y

theorem Double.Within.part {a b u : Float} (ha : Double.Within 508 a) (hb : Double.Within 508 b)
    (h0 : 0 ≤ u) (h1 : u ≤ 1) : Double.Within 511 (a + u * (b - a) - a) := by
  have hdifference := hb.sub ha (by decide)
  have hpart := (Double.Within.of_unit h0 h1).mul hdifference (by decide)
  have hpoint := (ha.mono (by decide : 508 ≤ 509)).add hpart (by decide)
  exact hpoint.sub (ha.mono (by decide)) (by decide)

theorem Segment.distanceSquared_within {s t : Segment Float} {p : Point Float}
    (ha : s.a.Within 508) (hb : s.b.Within 508) (h : s.intersect t = some p) :
    Double.Within 1023 (s.a.distanceSquared p) := by
  obtain ⟨u, -, ⟨h0, h1⟩, -, -, -, rfl⟩ := exists_params_of_intersect h
  have hx := ha.1.part hb.1 h0 h1
  have hy := ha.2.part hb.2 h0 h1
  exact (hx.mul hx (by decide)).add (hy.mul hy (by decide)) (by decide)

/-! ## What a report shows -/

namespace RayHit

/-- Whether a report shows that a wall was met, or that none was: it is the miss if none was met,
and both its distance and its point are finite if one was. -/
structure Shows (hit : RayHit) (met : Prop) : Prop where
  miss_iff : hit = miss ↔ ¬met
  isHit_iff : hit.isHit = true ↔ met
  point_iff : hit.point.isFinite = true ↔ met

variable {hit : RayHit} {met : Prop}

@[simp] theorem isHit_miss : miss.isHit = false := by
  decide +kernel

theorem shows_miss (h : ¬met) : miss.Shows met where
  miss_iff := iff_of_true rfl h
  isHit_iff := iff_of_false (Bool.eq_false_iff.mp isHit_miss) h
  point_iff := iff_of_false (by decide +kernel) h

theorem shows_full (hdistance : hit.isHit = true) (hpoint : hit.point.isFinite = true) (h : met) :
    hit.Shows met where
  miss_iff := by
    refine iff_of_false ?_ (not_not.mpr h)
    rintro rfl
    rw [isHit_miss] at hdistance
    cases hdistance
  isHit_iff := iff_of_true hdistance h
  point_iff := iff_of_true hpoint h

/-- The root of a squared distance is finite where the squared distance is. -/
theorem shows_strike_iff {ray s : Segment Float} {k : Strike Float} (hk : Strike.on? ray s = some k)
    (h : met) : (ofStrike? (some k)).Shows met ↔ k.distanceSquared.isFinite = true := by
  obtain ⟨hmeet, hdistance⟩ := Strike.on?_eq_some_iff.mp hk
  have hroot : (ofStrike? (some k)).isHit = k.distanceSquared.isFinite :=
    Double.isFinite_sqrt (hdistance ▸ Segment.distanceSquared_of_intersect hmeet)
  constructor
  · intro hshows
    rw [← hroot]
    exact hshows.isHit_iff.mpr h
  · intro hfinite
    refine shows_full (hroot.trans hfinite) ?_ h
    rw [hdistance] at hfinite
    exact Point.isFinite_of_distanceSquared hfinite

end RayHit

namespace Grid

/-- A report shows whether the ray met one of the walls that it searches, unless it met some and all
of them at squared distances that are infinite.  In any case a ray that meets nothing reports the
miss, and a ray between points with coordinates up to `2 ^ 508` reports in full. -/
theorem probe_shows_iff (grid : Grid Float) (place : Option Nat) (origin target : Point Float) :
    let ray : Segment Float := ⟨origin, target⟩
    let walls := grid.searchedWalls place ray
    let met := ∃ wall ∈ walls, ray.intersects wall.segment = true
    let hit := (grid.probe place origin target).result
    (¬met → hit = RayHit.miss) ∧
      (hit.Shows met ↔ (met → ∃ wall ∈ walls, ∃ p, ray.intersect wall.segment = some p ∧
        (origin.distanceSquared p).isFinite = true)) ∧
      (origin.Within 508 → target.Within 508 → hit.Shows met) := by
  intro ray walls met hit
  have hprobe : hit = RayHit.ofStrike? (Strike.nearest ray walls) :=
    congrArg RayHit.ofStrike? (grid.castRay_searchedWalls place origin target)
  rw [hprobe]
  cases hnearest : Strike.nearest ray walls with
  | none =>
      have hmet : ¬met := by
        rintro ⟨wall, hwall, hmeets⟩
        rw [Segment.intersects, Strike.nearest_eq_none_iff.mp hnearest wall hwall] at hmeets
        cases hmeets
      have hshows : RayHit.miss.Shows met := RayHit.shows_miss hmet
      exact ⟨fun _ => rfl, iff_of_true hshows fun h => absurd h hmet, fun _ _ => hshows⟩
  | some k =>
      obtain ⟨before, wall, after, hwalls, hon, hle, -⟩ := Strike.exists_first_of_nearest hnearest
      obtain ⟨hmeet, hdistance⟩ := Strike.on?_eq_some_iff.mp hon
      have hwall : wall ∈ walls := hwalls ▸ List.mem_append_right before List.mem_cons_self
      have hmet : met := ⟨wall, hwall, Option.isSome_iff_exists.mpr ⟨k.point, hmeet⟩⟩
      rw [RayHit.shows_strike_iff hon hmet]
      refine ⟨fun h => absurd hmet h, ⟨fun hfinite _ => ?_, fun hexists => ?_⟩, fun ha hb => ?_⟩
      · exact ⟨wall, hwall, k.point, hmeet, hdistance ▸ hfinite⟩
      · -- The reported strike is not farther than the one at a finite distance.
        obtain ⟨other, hother, q, hq, hfinite⟩ := hexists hmet
        have hnonneg : 0 ≤ k.distanceSquared :=
          hdistance ▸ Segment.distanceSquared_of_intersect hmeet
        exact Double.isFinite_of_nonneg_le hnonneg (hle other hother q hq) hfinite
      · exact hdistance ▸ (Segment.distanceSquared_within ha hb hmeet).finite

/-- A grid with one wall, for rays that meet it or pass it by. -/
def fenced : Grid Float :=
  ofDimensions ⟨0, 0, 4, 4, 4⟩ ⟨2, 2⟩ [⟨⟨2, 0⟩, ⟨2, 2⟩⟩]

theorem probe_shows_iff_fenced :
    Point.Within 508 ⟨1, 1⟩ ∧ Point.Within 508 ⟨3, 1⟩ ∧
      (fenced.probe (some 0) ⟨1, 1⟩ ⟨3, 1⟩).result.isHit = true ∧
      (fenced.probe (some 0) ⟨1, 1⟩ ⟨1, 3⟩).result = RayHit.miss := by
  have horigin : Point.Within 508 ⟨1, 1⟩ :=
    ⟨⟨rfl, by decide +kernel⟩, ⟨rfl, by decide +kernel⟩⟩
  have htarget : Point.Within 508 ⟨3, 1⟩ :=
    ⟨⟨rfl, by decide +kernel⟩, ⟨rfl, by decide +kernel⟩⟩
  have hmet : ∃ wall ∈ fenced.searchedWalls (some 0) ⟨⟨1, 1⟩, ⟨3, 1⟩⟩,
      (⟨⟨1, 1⟩, ⟨3, 1⟩⟩ : Segment Float).intersects wall.segment = true := by decide +kernel
  have hclear : ¬∃ wall ∈ fenced.searchedWalls (some 0) ⟨⟨1, 1⟩, ⟨1, 3⟩⟩,
      (⟨⟨1, 1⟩, ⟨1, 3⟩⟩ : Segment Float).intersects wall.segment = true := by decide +kernel
  obtain ⟨-, -, hshows⟩ := probe_shows_iff fenced (some 0) ⟨1, 1⟩ ⟨3, 1⟩
  obtain ⟨hmiss, -⟩ := probe_shows_iff fenced (some 0) ⟨1, 1⟩ ⟨1, 3⟩
  exact ⟨horigin, htarget, (hshows horigin htarget).isHit_iff.mpr hmet, hmiss hclear⟩

/-- A box that is `2 ^ 512` long, cut into two tiles of that size. -/
def longField : Playfield Float :=
  ⟨-1, -1, Float.ofBits 0x5ff0000000000000, 2, Float.ofBits 0x5ff0000000000000⟩

/-- A closed ring around the start of the long box, up to its far end. -/
def longRing : List (Segment Float) :=
  Segment.closing ⟨-1, -1⟩ ⟨-1, -1⟩ [⟨Float.ofBits 0x5ff0000000000000, -1⟩,
    ⟨Float.ofBits 0x5ff0000000000000, 1⟩, ⟨-1, 1⟩]

/-- A ray from inside the long ring to a point twice as far as its end. -/
def longRay : Segment Float :=
  ⟨⟨0, 0⟩, ⟨Float.ofBits 0x6000000000000000, 0⟩⟩

/-- The ray meets the far end of the ring in a finite point, but its report does not show it. -/
theorem longRing_not_shown :
    longField.validate = .ok () ∧
      ∃ grid, Grid.build longField longRing = .ok grid ∧
        (∃ wall ∈ grid.searchedWalls (grid.tileOf? longRay.a) longRay,
          longRay.intersects wall.segment = true) ∧
        (grid.probe (grid.tileOf? longRay.a) longRay.a longRay.b).result.point.isFinite = true ∧
        (grid.probe (grid.tileOf? longRay.a) longRay.a longRay.b).result.isHit = false := by
  have hsize : longField.dimensions = .ok ⟨2, 1⟩ := by rfl
  exact ⟨by rfl, _, Grid.build_eq hsize _, by decide +kernel, by decide +kernel,
    by decide +kernel⟩

end Grid

end Raceway
