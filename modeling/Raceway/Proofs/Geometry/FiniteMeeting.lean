import Raceway.Geometry.Segment
import Raceway.Proofs.Double.Finite
/-!
# Meeting points of doubles

Two segments of doubles meet only if all of their coordinates are finite: a coordinate that is not
would leave one of the two parameters no number.  The meeting point is then reached by a part of
a finite difference, so its distance is a number, though it may be infinite.
-/

namespace Raceway

namespace Segment

variable {s t : Segment Float} {p : Point Float}

theorem exists_params_of_intersect (h : s.intersect t = some p) :
    ∃ u v : Float, (0 ≤ u ∧ u ≤ 1) ∧ (0 ≤ v ∧ v ≤ 1) ∧
      u = ((t.b.x - t.a.x) * (s.a.y - t.a.y) - (t.b.y - t.a.y) * (s.a.x - t.a.x)) / s.cross t ∧
      v = ((s.b.x - s.a.x) * (s.a.y - t.a.y) - (s.b.y - s.a.y) * (s.a.x - t.a.x)) / s.cross t ∧
      p = ⟨s.a.x + u * (s.b.x - s.a.x), s.a.y + u * (s.b.y - s.a.y)⟩ := by
  unfold intersect at h
  extract_lets den u v at h
  split at h
  · cases h
  · split at h
    · rename_i hunit
      simp only [inUnit, Bool.and_eq_true, decide_eq_true_eq] at hunit
      exact ⟨u, v, hunit.1, hunit.2, rfl, rfl, (Option.some.inj h).symm⟩
    · cases h

/-- Either the cross product is finite, and with it both directions, or both numerators are. -/
theorem isFinite_of_intersect (h : s.intersect t = some p) :
    ((s.b.x - s.a.x).isFinite = true ∧ (s.b.y - s.a.y).isFinite = true) ∧
      (t.b.x - t.a.x).isFinite = true ∧ (t.b.y - t.a.y).isFinite = true := by
  obtain ⟨u, v, hu, hv, hueq, hveq, -⟩ := exists_params_of_intersect h
  have hparam {w : Float} (hw : 0 ≤ w ∧ w ≤ 1) : w.isNaN = false := (Double.nonneg_iff.mp hw.1).1
  by_cases hcross : (s.cross t).isFinite = true
  · obtain ⟨hleft, hright⟩ := Double.isFinite_of_sub hcross
    obtain ⟨hty, hsx⟩ := Double.isFinite_of_mul hleft
    obtain ⟨htx, hsy⟩ := Double.isFinite_of_mul hright
    exact ⟨⟨hsx, hsy⟩, htx, hty⟩
  · have hnumU := (Double.isFinite_of_div (hueq ▸ hparam hu)).resolve_right hcross
    have hnumV := (Double.isFinite_of_div (hveq ▸ hparam hv)).resolve_right hcross
    obtain ⟨hleft, hright⟩ := Double.isFinite_of_sub hnumU
    obtain ⟨hleft', hright'⟩ := Double.isFinite_of_sub hnumV
    exact ⟨⟨(Double.isFinite_of_mul hleft').1, (Double.isFinite_of_mul hright').1⟩,
      (Double.isFinite_of_mul hleft).1, (Double.isFinite_of_mul hright).1⟩

theorem ends_of_intersect (h : s.intersect t = some p) :
    (s.a.isFinite = true ∧ s.b.isFinite = true) ∧ t.a.isFinite = true ∧ t.b.isFinite = true := by
  have hends {q r : Point Float} (hx : (r.x - q.x).isFinite = true)
      (hy : (r.y - q.y).isFinite = true) : q.isFinite = true ∧ r.isFinite = true := by
    obtain ⟨hrx, hqx⟩ := Double.isFinite_of_sub hx
    obtain ⟨hry, hqy⟩ := Double.isFinite_of_sub hy
    exact ⟨Bool.and_eq_true_iff.mpr ⟨hqx, hqy⟩, Bool.and_eq_true_iff.mpr ⟨hrx, hry⟩⟩
  obtain ⟨⟨hsx, hsy⟩, htx, hty⟩ := isFinite_of_intersect h
  exact ⟨hends hsx hsy, hends htx hty⟩

theorem point_of_intersect (h : s.intersect t = some p) :
    p.x.isNaN = false ∧ p.y.isNaN = false := by
  obtain ⟨u, -, ⟨hu0, hu1⟩, -, -, -, rfl⟩ := exists_params_of_intersect h
  obtain ⟨⟨hx, hy⟩, -⟩ := isFinite_of_intersect h
  obtain ⟨⟨ha, -⟩, -⟩ := ends_of_intersect h
  obtain ⟨hax, hay⟩ := Bool.and_eq_true_iff.mp ha
  exact ⟨(Double.add_spec hax (Double.isFinite_part hu0 hu1 hx)).1,
    (Double.add_spec hay (Double.isFinite_part hu0 hu1 hy)).1⟩

theorem distanceSquared_of_intersect (h : s.intersect t = some p) :
    0 ≤ s.a.distanceSquared p := by
  obtain ⟨hx, hy⟩ := point_of_intersect h
  obtain ⟨⟨ha, -⟩, -⟩ := ends_of_intersect h
  obtain ⟨hax, hay⟩ := Bool.and_eq_true_iff.mp ha
  exact Double.sum_nonneg (Double.square_nonneg (Double.isNaN_sub hx hax))
    (Double.square_nonneg (Double.isNaN_sub hy hay))

end Segment

end Raceway
