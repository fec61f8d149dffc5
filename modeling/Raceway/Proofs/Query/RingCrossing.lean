import Raceway.Proofs.Course
import Raceway.Proofs.Geometry.Enclosure
import Raceway.Proofs.Query.RaySearch
/-!
# Rays across a ring of wall

A course has both rings of its layout as walls, all of them in its grid.  Hence a ray from one
side of a ring to the other strikes a wall, whatever the shape of the ring.
-/

namespace Raceway.Grid

open Segment (Encloses)

variable {layout : Layout Rat} {field : Playfield Rat} {course : Course Rat}

theorem exact_of_lay (h : Course.lay layout field = .ok course) :
    course.grid.Exact ∧ ∃ walls, layout.walls = .ok walls ∧
      course.grid.walls = Wall.number walls := by
  obtain ⟨hvalid, walls, hwalls, -, hbuild⟩ := Course.of_lay h
  obtain ⟨grid, hgrid, hnumbered, hexact⟩ := build_exact hvalid walls
  obtain rfl := Except.ok.inj (hgrid.symm.trans hbuild)
  exact ⟨hexact, walls, hwalls, hnumbered⟩

theorem castRay_ne_none_of_ring (h : Course.lay layout field = .ok course) {ring : Ring}
    (hinside : ∀ p ∈ layout.points ring, course.grid.Covers p) :
    ∃ segments, ring.close (layout.points ring) = .ok segments ∧
      ∀ origin target : Point Rat,
        (∃ s ∈ segments, Segment.intersects ⟨origin, target⟩ s = true) →
        (course.grid.castRay (course.grid.tileOf? origin) origin target).result ≠ none := by
  obtain ⟨hexact, walls, hwalls, hnumbered⟩ := exact_of_lay h
  obtain ⟨segments, hclose, hsubset, hends⟩ := Layout.ring_subset_walls hwalls ring
  refine ⟨segments, hclose, ?_⟩
  rintro origin target ⟨s, hs, hmeet⟩
  obtain ⟨wall, hwall, rfl⟩ := Wall.exists_segments.mp ⟨s, hsubset hs, rfl⟩
  obtain ⟨p, hp⟩ := Option.isSome_iff_exists.mp hmeet
  have hcover := hexact.covers_of_intersect
    ⟨hinside _ (hends _ hs).1, hinside _ (hends _ hs).2⟩ hp
  exact hexact.castRay_ne_none _ (hnumbered ▸ hwall) hp hcover

/-- A ray that leaves a ring strikes a wall.  On a course whose wall points lie in its tiles, a ray
between two points that are not on a ring, one of them inside and one outside by the even-odd
rule, is never reported to be clear. -/
theorem castRay_leaving_ring (hlay : Course.lay layout field = .ok course)
    (hinside : ∀ p ∈ layout.inner ++ layout.outer, course.grid.Covers p) (ring : Ring) :
    ∃ segments, ring.close (layout.points ring) = .ok segments ∧
      ∀ origin target : Point Rat,
        (∀ s ∈ segments, ¬s.Holds origin ∧ ¬s.Holds target) →
        ¬(Encloses segments origin ↔ Encloses segments target) →
        (course.grid.castRay (course.grid.tileOf? origin) origin target).result ≠ none := by
  have hpoints : ∀ p ∈ layout.points ring, course.grid.Covers p := by
    intro p hp
    cases ring with
    | inner => exact hinside p (List.mem_append_left _ hp)
    | outer => exact hinside p (List.mem_append_right _ hp)
  obtain ⟨segments, hclose, hstrikes⟩ := castRay_ne_none_of_ring hlay hpoints
  refine ⟨segments, hclose, fun origin target hoff hsides => hstrikes origin target ?_⟩
  obtain ⟨a, b, rest, -, rfl⟩ := Ring.of_close hclose
  exact Segment.exists_intersects_of_encloses hoff hsides

/-- A ring with a notch. -/
def notchedRing : List (Segment Rat) :=
  Segment.closing ⟨2, 2⟩ ⟨2, 2⟩ [⟨8, 2⟩, ⟨8, 6⟩, ⟨12, 6⟩, ⟨12, 10⟩, ⟨2, 10⟩]

/-- A layout with a notched ring inside a square one. -/
def notched : Layout Rat where
  inner := [⟨2, 2⟩, ⟨8, 2⟩, ⟨8, 6⟩, ⟨12, 6⟩, ⟨12, 10⟩, ⟨2, 10⟩]
  outer := [⟨0, 0⟩, ⟨25, 0⟩, ⟨25, 25⟩, ⟨0, 25⟩]
  checkpoints := []

/-- A ray that leaves the inner ring along a wall of the notch. -/
theorem castRay_leaving_ring_notched :
    ∃ course, Course.lay notched ⟨0, 0, 20, 20, 10⟩ = .ok course ∧
      (∀ p ∈ notched.inner ++ notched.outer, course.grid.Covers p) ∧
      Ring.inner.close notched.inner = .ok notchedRing ∧
      (∀ s ∈ notchedRing, ¬s.Holds ⟨4, 6⟩ ∧ ¬s.Holds ⟨20, 6⟩) ∧
      Encloses notchedRing ⟨4, 6⟩ ∧ ¬Encloses notchedRing ⟨20, 6⟩ ∧
      (course.grid.castRay (course.grid.tileOf? ⟨4, 6⟩) ⟨4, 6⟩ ⟨20, 6⟩).result ≠ none := by
  have hfield : (⟨0, 0, 20, 20, 10⟩ : Playfield Rat).validate = .ok () :=
    eq_ok_of_toOption (by decide +kernel)
  have hsize : (⟨0, 0, 20, 20, 10⟩ : Playfield Rat).dimensions = .ok ⟨3, 3⟩ :=
    eq_ok_of_toOption (by decide +kernel)
  have hlay : Course.lay notched ⟨0, 0, 20, 20, 10⟩ = .ok ⟨_, []⟩ :=
    Course.lay_eq_ok hfield rfl rfl (build_eq hsize _)
  have hinside (segments : List (Segment Rat)) : ∀ p ∈ notched.inner ++ notched.outer,
      (ofDimensions ⟨0, 0, 20, 20, 10⟩ ⟨3, 3⟩ segments).Covers p := by
    simp only [covers_iff ⟨hsize, by decide +kernel, by decide, by decide⟩]
    decide +kernel
  -- Both ends of the ray are off the boxes of all segments.
  have hoff (p : Point Rat)
      (hboxes : notchedRing.all (fun s => !(⟨p, p⟩ : Rect Rat).overlapsBounds s) = true) :
      ∀ s ∈ notchedRing, ¬s.Holds p := by
    intro s hs hon
    have hself : (⟨p, p⟩ : Rect Rat).contains p = true := by simp [Rect.contains_iff]
    have hbox := List.all_eq_true.mp hboxes s hs
    rw [Rect.overlapsBounds_of_holds hon hself] at hbox
    cases hbox
  have hclear : ∀ s ∈ notchedRing, ¬s.Holds ⟨4, 6⟩ ∧ ¬s.Holds ⟨20, 6⟩ := fun s hs =>
    ⟨hoff _ (by decide +kernel) s hs, hoff _ (by decide +kernel) s hs⟩
  have hin : Encloses notchedRing ⟨4, 6⟩ := by decide +kernel
  have hout : ¬Encloses notchedRing ⟨20, 6⟩ := by decide +kernel
  obtain ⟨segments, hclose, hstrikes⟩ := castRay_leaving_ring hlay (hinside _) .inner
  obtain rfl : notchedRing = segments := Except.ok.inj hclose
  exact ⟨_, hlay, hinside _, hclose, hclear, hin, hout,
    hstrikes _ _ hclear fun hsides => hout (hsides.mp hin)⟩

end Raceway.Grid
