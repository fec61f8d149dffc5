import Mathlib.Algebra.Order.Field.Rat
import Mathlib.Tactic.Linarith
import Mathlib.Tactic.LinearCombination
import Mathlib.Tactic.Ring
import Raceway.Geometry.Segment
/-!
# Where segments meet

Over the rationals the formulas for a meeting point carry no rounding.  A segment is the set of
its points `s.point u` with `0 ≤ u ≤ 1`, and two segments that are not parallel meet exactly in
their one common point.
-/

namespace Raceway

attribute [ext] Point

namespace Coord

/-! ## The operations on rationals -/

theorem rat_beq_zero (x : Rat) : (x == (0 : Rat)) = decide (x = 0) := rfl

@[simp] theorem rat_least (a b : Rat) : least a b = min a b := by
  unfold least
  by_cases h : a < b
  · rw [if_pos h, min_eq_left h.le]
  · rw [if_neg h, if_pos (beq_self_eq_true b), min_eq_right (not_lt.mp h)]

@[simp] theorem rat_greatest (a b : Rat) : greatest a b = max a b := by
  unfold greatest
  by_cases h : b < a
  · rw [if_pos h, max_eq_left h.le]
  · rw [if_neg h, if_pos (beq_self_eq_true b), max_eq_right (not_lt.mp h)]

end Coord

namespace Segment

/-! ## The points of a segment -/

/-- The point of the line through a segment at a parameter, which is 0 at the first end and 1 at
the second one. -/
def point (s : Segment Rat) (u : Rat) : Point Rat :=
  ⟨s.a.x + u * (s.b.x - s.a.x), s.a.y + u * (s.b.y - s.a.y)⟩

/-- Whether a point lies on a segment, ends included. -/
def Holds (s : Segment Rat) (p : Point Rat) : Prop :=
  ∃ u, 0 ≤ u ∧ u ≤ 1 ∧ s.point u = p

/-- The parameter at which the line through `s` meets the line through `t`. -/
def param (s t : Segment Rat) : Rat :=
  ((t.b.x - t.a.x) * (s.a.y - t.a.y) - (t.b.y - t.a.y) * (s.a.x - t.a.x)) / s.cross t

theorem inUnit_iff (t : Rat) : inUnit t = true ↔ 0 ≤ t ∧ t ≤ 1 := by
  simp [inUnit]

theorem cross_eq (s t : Segment Rat) :
    s.cross t = (t.b.y - t.a.y) * (s.b.x - s.a.x) - (t.b.x - t.a.x) * (s.b.y - s.a.y) := rfl

theorem cross_swap (s t : Segment Rat) : t.cross s = -s.cross t := by
  rw [cross_eq, cross_eq]
  ring

/-! ## The meeting point -/

theorem intersect_eq (s t : Segment Rat) :
    s.intersect t =
      if s.cross t = 0 then none
      else if inUnit (s.param t) && inUnit (t.param s) then some (s.point (s.param t))
      else none := by
  have hswap : ((s.b.x - s.a.x) * (s.a.y - t.a.y) - (s.b.y - s.a.y) * (s.a.x - t.a.x)) /
      s.cross t = t.param s := by
    rw [param, cross_swap s t, ← neg_div_neg_eq]
    congr 1
    ring
  unfold intersect
  simp only [Coord.rat_beq_zero, decide_eq_true_eq]
  rw [hswap]
  rfl

theorem eq_param_of_point_eq {s t : Segment Rat} (hcross : s.cross t ≠ 0) {u v : Rat}
    (h : s.point u = t.point v) : u = s.param t := by
  have hx : s.a.x + u * (s.b.x - s.a.x) = t.a.x + v * (t.b.x - t.a.x) := congrArg Point.x h
  have hy : s.a.y + u * (s.b.y - s.a.y) = t.a.y + v * (t.b.y - t.a.y) := congrArg Point.y h
  rw [param, eq_div_iff hcross, cross_eq]
  linear_combination (t.b.y - t.a.y) * hx - (t.b.x - t.a.x) * hy

theorem point_param {s t : Segment Rat} (hcross : s.cross t ≠ 0) :
    s.point (s.param t) = t.point (t.param s) := by
  have hcross' : t.cross s ≠ 0 := by rwa [cross_swap, neg_ne_zero]
  have hs : s.param t * s.cross t =
      (t.b.x - t.a.x) * (s.a.y - t.a.y) - (t.b.y - t.a.y) * (s.a.x - t.a.x) :=
    div_mul_cancel₀ _ hcross
  have ht : t.param s * t.cross s =
      (s.b.x - s.a.x) * (t.a.y - s.a.y) - (s.b.y - s.a.y) * (t.a.x - s.a.x) :=
    div_mul_cancel₀ _ hcross'
  rw [cross_swap] at ht
  simp only [point, Point.mk.injEq]
  constructor
  · apply mul_right_cancel₀ hcross
    have hc := cross_eq s t
    linear_combination (s.b.x - s.a.x) * hs + (t.b.x - t.a.x) * ht + (s.a.x - t.a.x) * hc
  · apply mul_right_cancel₀ hcross
    have hc := cross_eq s t
    linear_combination (s.b.y - s.a.y) * hs + (t.b.y - t.a.y) * ht + (s.a.y - t.a.y) * hc

theorem intersect_eq_some_iff {s t : Segment Rat} {p : Point Rat} :
    s.intersect t = some p ↔ s.cross t ≠ 0 ∧ s.Holds p ∧ t.Holds p := by
  rw [intersect_eq]
  constructor
  · intro h
    split_ifs at h with hcross hunit
    obtain rfl : s.point (s.param t) = p := Option.some.inj h
    rw [Bool.and_eq_true, inUnit_iff, inUnit_iff] at hunit
    obtain ⟨⟨hs0, hs1⟩, ht0, ht1⟩ := hunit
    exact ⟨hcross, ⟨_, hs0, hs1, rfl⟩, ⟨_, ht0, ht1, (point_param hcross).symm⟩⟩
  · rintro ⟨hcross, ⟨u, hu0, hu1, rfl⟩, v, hv0, hv1, hpoint⟩
    have hcross' : t.cross s ≠ 0 := by rwa [cross_swap, neg_ne_zero]
    have hu : u = s.param t := eq_param_of_point_eq hcross hpoint.symm
    have hv : v = t.param s := eq_param_of_point_eq hcross' hpoint
    rw [← hu, ← hv, if_neg hcross, if_pos]
    rw [Bool.and_eq_true, inUnit_iff, inUnit_iff]
    exact ⟨⟨hu0, hu1⟩, hv0, hv1⟩

theorem intersects_iff {s t : Segment Rat} :
    s.intersects t = true ↔ s.cross t ≠ 0 ∧ ∃ p, s.Holds p ∧ t.Holds p := by
  rw [intersects, Option.isSome_iff_exists]
  simp only [intersect_eq_some_iff, exists_and_left]

end Segment

end Raceway
