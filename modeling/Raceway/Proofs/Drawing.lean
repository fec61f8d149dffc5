import Mathlib.Data.List.Rotate
import Raceway.Proofs.Course
import Raceway.Proofs.Layout
/-!
# Drawings

A layout draws each of its rings as a closed line of walls, and a gate between every two of its
checkpoints.  The flat lists that the layout came from can be read off the walls and gates.
-/

namespace Raceway

variable {α : Type}

namespace Segment

/-- Whether segments go round through points: they start at the points one after another, each of
them ends where the next one starts, and the last one ends where the first one starts. -/
structure Round (points : List (Point α)) (ring : List (Segment α)) : Prop where
  starts_eq : ring.map Segment.a = points
  ends_eq : ∀ i < ring.length,
    ring[i]?.map Segment.b = ring[(i + 1) % ring.length]?.map Segment.a

theorem Round.length_eq {points : List (Point α)} {ring : List (Segment α)}
    (h : Round points ring) : ring.length = points.length := by
  rw [← h.starts_eq, List.length_map]

@[simp] theorem map_a_closing (start a : Point α) (rest : List (Point α)) :
    (closing start a rest).map Segment.a = a :: rest := by
  induction rest generalizing a with
  | nil => rfl
  | cons b rest ih => rw [closing, List.map_cons, ih]

@[simp] theorem map_b_closing (start a : Point α) (rest : List (Point α)) :
    (closing start a rest).map Segment.b = rest ++ [start] := by
  induction rest generalizing a with
  | nil => rfl
  | cons b rest ih => rw [closing, List.map_cons, ih, List.cons_append]

/-- The ends of a ring are its starts, moved on by one. -/
theorem round_closing (a : Point α) (rest : List (Point α)) :
    Round (a :: rest) (closing a a rest) where
  starts_eq := map_a_closing a a rest
  ends_eq i hi := by
    have hstarts := map_a_closing a a rest
    have hlength : (closing a a rest).length = (a :: rest).length := by
      rw [← hstarts, List.length_map]
    have hrotate : (closing a a rest).map Segment.b = (a :: rest).rotate 1 := by
      rw [map_b_closing, List.rotate_cons_succ, List.rotate_zero]
    rw [hlength] at hi ⊢
    rw [← List.getElem?_map, ← List.getElem?_map, hrotate, hstarts, List.getElem?_rotate hi]

/-- The ends of segments, two for each. -/
def ends (segments : List (Segment α)) : List (Point α) :=
  segments.flatMap fun s => [s.a, s.b]

theorem ends_pairUp {points : List (Point α)} (heven : points.length % 2 = 0) :
    ends (pairUp points) = points :=
  flatMap_pairUp pairUp Segment.mk (fun s => [s.a, s.b]) rfl (fun _ _ _ => rfl) (fun _ _ => rfl)
    heven

end Segment

theorem Ring.exists_round (ring : Ring) {points : List (Point α)} (h : 2 ≤ points.length) :
    ∃ segments, ring.close points = .ok segments ∧ Segment.Round points segments := by
  match points with
  | [] => simp at h
  | [_] => simp at h
  | a :: b :: rest => exact ⟨_, rfl, Segment.round_closing a (b :: rest)⟩

namespace Layout

theorem flat_of_ofFlat {inner outer checkpoints : List α} {layout : Layout α}
    (h : ofFlat inner outer checkpoints = .ok layout) :
    Point.flat layout.inner = inner ∧ Point.flat layout.outer = outer ∧
      Point.flat layout.checkpoints = checkpoints := by
  have hflat {buffer : Buffer} {coords : List α} {points : List (Point α)}
      (h : Point.ofFlat buffer coords = .ok points) : Point.flat points = coords := by
    obtain ⟨heven, rfl⟩ := Point.of_ofFlat h
    exact Point.flat_pairUp heven
  unfold ofFlat at h
  obtain ⟨_, hinner, h⟩ := exists_of_bind_eq_ok h
  obtain ⟨_, houter, h⟩ := exists_of_bind_eq_ok h
  obtain ⟨_, hcheckpoints, h⟩ := exists_of_bind_eq_ok h
  obtain rfl := Except.ok.inj h
  exact ⟨hflat hinner, hflat houter, hflat hcheckpoints⟩

theorem walls_eq_ok {layout : Layout α} {inner outer : List (Segment α)}
    (hinner : Ring.inner.close layout.inner = .ok inner)
    (houter : Ring.outer.close layout.outer = .ok outer) :
    layout.walls = .ok (inner ++ outer) := by
  rw [walls, hinner, houter]
  rfl

theorem gates_eq_ok {layout : Layout α} (h : layout.checkpoints.length % 2 = 0) :
    layout.gates = .ok (Segment.pairUp layout.checkpoints) := by
  rw [gates, if_pos (beq_iff_eq.mpr h)]

/-- Nothing of accepted flat lists is lost in the drawing.  With two points at least in both rings
and paired checkpoints there is one wall for each point, and the walls start at the points of the
inner list and then of the outer one.  The walls of each ring end at starts of walls of the same
ring, each at the next one and the last at the first, and the ends of the gates are the
checkpoints. -/
theorem draws_without_loss {inner outer checkpoints : List α} {layout : Layout α}
    (hlayout : ofFlat inner outer checkpoints = .ok layout) (hinner : 2 ≤ layout.inner.length)
    (houter : 2 ≤ layout.outer.length) (hpaired : layout.checkpoints.length % 2 = 0) :
    ∃ innerRing outerRing drawnGates,
      layout.walls = .ok (innerRing ++ outerRing) ∧ layout.gates = .ok drawnGates ∧
      (innerRing ++ outerRing).length = layout.inner.length + layout.outer.length ∧
      Point.flat ((innerRing ++ outerRing).map Segment.a) = inner ++ outer ∧
      Segment.Round layout.inner innerRing ∧ Segment.Round layout.outer outerRing ∧
      Point.flat (Segment.ends drawnGates) = checkpoints := by
  obtain ⟨hflatInner, hflatOuter, hflatCheckpoints⟩ := flat_of_ofFlat hlayout
  obtain ⟨innerRing, hinnerWalls, hinnerRound⟩ := Ring.inner.exists_round hinner
  obtain ⟨outerRing, houterWalls, houterRound⟩ := Ring.outer.exists_round houter
  refine ⟨innerRing, outerRing, _, walls_eq_ok hinnerWalls houterWalls, gates_eq_ok hpaired, ?_,
    ?_, hinnerRound, houterRound, ?_⟩
  · rw [List.length_append, hinnerRound.length_eq, houterRound.length_eq]
  · rw [List.map_append, hinnerRound.starts_eq, houterRound.starts_eq, Point.flat_append,
      hflatInner, hflatOuter]
  · rw [Segment.ends_pairUp hpaired, hflatCheckpoints]

/-- A ring of three points and one of two, with a gate between them. -/
def wedge : Layout Float where
  inner := [⟨0, 0⟩, ⟨0, 10⟩, ⟨10, 10⟩]
  outer := [⟨-5, -5⟩, ⟨20, -5⟩]
  checkpoints := [⟨-0.0, 0⟩, ⟨-5, -5⟩]

theorem draws_without_loss_wedge :
    ofFlat [0, 0, 0, 10, 10, 10] [-5, -5, 20, -5] [-0.0, 0, -5, -5] = .ok wedge ∧
      2 ≤ wedge.inner.length ∧ 2 ≤ wedge.outer.length ∧ wedge.checkpoints.length % 2 = 0 ∧
      ∃ innerRing outerRing drawnGates,
        wedge.walls = .ok (innerRing ++ outerRing) ∧ wedge.gates = .ok drawnGates ∧
        (innerRing ++ outerRing).length = 5 ∧
        Point.flat ((innerRing ++ outerRing).map Segment.a) =
          [0, 0, 0, 10, 10, 10, -5, -5, 20, -5] ∧
        Segment.Round wedge.inner innerRing ∧ Segment.Round wedge.outer outerRing ∧
        Point.flat (Segment.ends drawnGates) = [-0.0, 0, -5, -5] := by
  have hflat : ofFlat [0, 0, 0, 10, 10, 10] [-5, -5, 20, -5] [-0.0, 0, -5, -5] = .ok wedge := rfl
  have hinner : 2 ≤ wedge.inner.length := by decide
  have houter : 2 ≤ wedge.outer.length := by decide
  have hpaired : wedge.checkpoints.length % 2 = 0 := by decide
  exact ⟨hflat, hinner, houter, hpaired, draws_without_loss hflat hinner houter hpaired⟩

end Layout

end Raceway
