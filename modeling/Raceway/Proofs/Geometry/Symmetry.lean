import Raceway.Geometry.Segment
import Raceway.Proofs.Double.Opposite
/-!
# Either segment may be asked

Whether two segments of doubles meet does not depend on which of them is asked.  The other way
round the cross product and both numerators are opposite, so the two parameters change places, and
the test on them is the same.
-/

namespace Raceway

open Double

namespace Segment

/-- What is divided by the cross product for the parameter of a meeting point: the cross product
of the way from `q` to `p` with the direction of a segment. -/
def numerator (s : Segment Float) (p q : Point Float) : Float :=
  (s.b.x - s.a.x) * (p.y - q.y) - (s.b.y - s.a.y) * (p.x - q.x)

theorem intersects_eq (s t : Segment Float) :
    s.intersects t = (!(s.cross t == 0) && (inUnit (t.numerator s.a t.a / s.cross t) &&
      inUnit (s.numerator s.a t.a / s.cross t))) := by
  have hintersect : s.intersect t =
      if s.cross t == 0 then none
      else if inUnit (t.numerator s.a t.a / s.cross t) &&
          inUnit (s.numerator s.a t.a / s.cross t) then
        some ⟨s.a.x + t.numerator s.a t.a / s.cross t * (s.b.x - s.a.x),
          s.a.y + t.numerator s.a t.a / s.cross t * (s.b.y - s.a.y)⟩
      else none := rfl
  rw [intersects, hintersect]
  split_ifs with hzero hunit
  · rw [hzero]
    rfl
  · rw [hunit, Bool.eq_false_iff.mpr hzero]
    rfl
  · rw [Bool.eq_false_iff.mpr hunit, Bool.and_false]
    rfl

theorem inUnit_congr {u v : Float} (hnan : u.isNaN = v.isNaN) (hrank : rank u = rank v) :
    inUnit u = inUnit v := by
  simp only [inUnit, le_iff, hnan, hrank]

/-! ## The other way round -/

theorem opposite_cross (s t : Segment Float) : Opposite (s.cross t) (t.cross s) := by
  rw [cross, cross, product_comm (s.b.y - s.a.y), product_comm (s.b.x - s.a.x)]
  exact opposite_sub _ _

theorem opposite_numerator (s : Segment Float) (p q : Point Float) :
    Opposite (s.numerator p q) (s.numerator q p) :=
  ((opposite_sub p.y q.y).mul _).sub ((opposite_sub p.x q.x).mul _)

theorem inUnit_quotient {s t : Segment Float} (hne : ¬(s.cross t == 0) = true)
    (r : Segment Float) :
    inUnit (r.numerator t.a s.a / t.cross s) = inUnit (r.numerator s.a t.a / s.cross t) := by
  obtain ⟨hnan, hrank⟩ :=
    (opposite_numerator r s.a t.a).div (opposite_cross s t) hne
  exact inUnit_congr hnan hrank

/-- Two segments of doubles meet one another or neither meets the other, whatever is rounded,
overflows or is no number on the way. -/
theorem intersects_comm (s t : Segment Float) : s.intersects t = t.intersects s := by
  rw [intersects_eq, intersects_eq, (opposite_cross s t).beq_zero_eq]
  cases hzero : s.cross t == 0 with
  | true => rw [Bool.not_true, Bool.false_and, Bool.false_and]
  | false =>
      have hne := Bool.eq_false_iff.mp hzero
      rw [inUnit_quotient hne t, inUnit_quotient hne s,
        Bool.and_comm (inUnit (t.numerator s.a t.a / s.cross t))]

end Segment

end Raceway
