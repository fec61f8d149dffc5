import Raceway.Proofs.Geometry.Clipping
import Raceway.Proofs.Geometry.FiniteMeeting
/-!
# The look at the boxes

Before a wall is tested against a rectangle its box is looked at.  Over doubles that look is exact,
while the test of the sides is rounded; so the look can turn down a wall that the sides alone would
have let pass.  It does so only where a side is crossed by rounding, by a wall that in truth has no
point in the rectangle.
-/

namespace Raceway

namespace Coord

variable {a b x : Float}

theorem le_greatest_iff : x ≤ greatest a b ↔ x ≤ a ∨ x ≤ b := by
  unfold greatest
  split_ifs with hlt hb
  · exact ⟨Or.inl, fun h => h.elim id fun h => Double.le_trans h (Double.le_of_lt hlt)⟩
  · refine ⟨Or.inr, fun h => h.elim (fun h => ?_) id⟩
    obtain ⟨-, ha, -⟩ := Double.le_iff.mp h
    exact Double.le_trans h (Double.le_of_not_lt ha (Double.beq_iff.mp hb).1 hlt)
  · refine ⟨Or.inl, fun h => h.elim id fun h => ?_⟩
    obtain ⟨-, hnumber, -⟩ := Double.le_iff.mp h
    exact absurd (Double.beq_iff.mpr ⟨hnumber, hnumber, rfl⟩) hb

theorem least_le_iff : least a b ≤ x ↔ a ≤ x ∨ b ≤ x := by
  unfold least
  split_ifs with hlt hb
  · exact ⟨Or.inl, fun h => h.elim id fun h => Double.le_trans (Double.le_of_lt hlt) h⟩
  · refine ⟨Or.inr, fun h => h.elim (fun h => ?_) id⟩
    obtain ⟨ha, -, -⟩ := Double.le_iff.mp h
    exact Double.le_trans (Double.le_of_not_lt (Double.beq_iff.mp hb).1 ha hlt) h
  · refine ⟨Or.inl, fun h => h.elim id fun h => ?_⟩
    obtain ⟨hnumber, -, -⟩ := Double.le_iff.mp h
    exact absurd (Double.beq_iff.mpr ⟨hnumber, hnumber, rfl⟩) hb

end Coord

/-- A point is parallel to every segment, or nothing can be said of it. -/
theorem Segment.intersect_point {p : Point Float} (hx : p.x.isFinite = true)
    (hy : p.y.isFinite = true) (t : Segment Float) :
    (⟨p, p⟩ : Segment Float).intersect t = none := by
  have hcross : Double.rank ((⟨p, p⟩ : Segment Float).cross t) = 0 :=
    Double.rank_sub_eq_zero (Double.rank_mul_eq_zero _ (Double.rank_sub_self hx))
      (Double.rank_mul_eq_zero _ (Double.rank_sub_self hy))
  unfold intersect
  rcases Double.beq_zero_or hcross with hzero | hnan
  · exact if_pos hzero
  · simp only
    split
    · rfl
    · split
      · rename_i hunit
        simp only [Bool.and_eq_true, inUnit, decide_eq_true_eq] at hunit
        have hnumber := (Double.le_iff.mp hunit.1.1).2.1
        rw [hnan] at hnumber
        cases hnumber
      · rfl

/-! ## Exact values -/

/-- The point of the exact values of two finite doubles. -/
def Point.exact (p : Point Float) : Point Rat :=
  ⟨Double.value p.x, Double.value p.y⟩

def Segment.exact (s : Segment Float) : Segment Rat :=
  ⟨s.a.exact, s.b.exact⟩

def Rect.exact (r : Rect Float) : Rect Rat :=
  ⟨r.min.exact, r.max.exact⟩

namespace Rect

variable {r : Rect Float} {s : Segment Float}

theorem contains_iff_le {p : Point Float} : r.contains p = true ↔
    (r.min.x ≤ p.x ∧ p.x ≤ r.max.x) ∧ r.min.y ≤ p.y ∧ p.y ≤ r.max.y := by
  simp only [contains, Bool.and_eq_true, decide_eq_true_eq, and_assoc]

theorem Ordered.exact (hr : r.Ordered) (hmin : r.min.isFinite = true)
    (hmax : r.max.isFinite = true) : r.exact.Ordered := by
  obtain ⟨hminx, hminy⟩ := Bool.and_eq_true_iff.mp hmin
  obtain ⟨hmaxx, hmaxy⟩ := Bool.and_eq_true_iff.mp hmax
  exact ⟨(Double.le_iff_value_le hminx hmaxx).mp hr.1, (Double.le_iff_value_le hminy hmaxy).mp hr.2⟩

/-! ## Boxes -/

/-- Whether some side of the rectangle has a segment beyond it: neither end is on the inner side
of it. -/
def Beyond (r : Rect Float) (s : Segment Float) : Prop :=
  (¬r.min.x ≤ s.a.x ∧ ¬r.min.x ≤ s.b.x) ∨ (¬s.a.x ≤ r.max.x ∧ ¬s.b.x ≤ r.max.x) ∨
    (¬r.min.y ≤ s.a.y ∧ ¬r.min.y ≤ s.b.y) ∨ (¬s.a.y ≤ r.max.y ∧ ¬s.b.y ≤ r.max.y)

instance (r : Rect Float) (s : Segment Float) : Decidable (r.Beyond s) :=
  inferInstanceAs (Decidable (_ ∨ _))

theorem overlapsBounds_iff : r.overlapsBounds s = true ↔
    ((r.min.x ≤ s.a.x ∨ r.min.x ≤ s.b.x) ∧ (s.a.x ≤ r.max.x ∨ s.b.x ≤ r.max.x)) ∧
      (r.min.y ≤ s.a.y ∨ r.min.y ≤ s.b.y) ∧ (s.a.y ≤ r.max.y ∨ s.b.y ≤ r.max.y) := by
  simp only [overlapsBounds, Segment.minX, Segment.maxX, Segment.minY, Segment.maxY,
    Bool.and_eq_true, decide_eq_true_eq, Coord.le_greatest_iff, Coord.least_le_iff, and_assoc]

theorem overlapsBounds_iff_not_beyond : r.overlapsBounds s = true ↔ ¬r.Beyond s := by
  rw [overlapsBounds_iff, Beyond]
  simp only [not_or, not_and_or, not_not, and_assoc]

theorem overlapsBounds_of_contains (h : r.contains s.a = true ∨ r.contains s.b = true) :
    r.overlapsBounds s = true := by
  rw [contains_iff_le, contains_iff_le] at h
  rw [overlapsBounds_iff]
  exact ⟨⟨h.imp (·.1.1) (·.1.1), h.imp (·.1.2) (·.1.2)⟩,
    h.imp (·.2.1) (·.2.1), h.imp (·.2.2) (·.2.2)⟩

theorem touches_of_contains (h : r.contains s.a = true ∨ r.contains s.b = true) :
    r.touches s = true := by
  rw [touches_eq, overlapsBounds_of_contains h, Bool.true_and, reaches_iff]
  exact Or.inl h

theorem contains_of_touches_point {p : Point Float} (hx : p.x.isFinite = true)
    (hy : p.y.isFinite = true) (h : r.touches ⟨p, p⟩ = true) : r.contains p = true := by
  have hcross : r.crossesBoundary ⟨p, p⟩ = false := by
    rw [crossesBoundary, List.any_eq_false]
    intro edge _
    rw [Segment.intersects, Segment.intersect_point hx hy]
    exact Bool.false_ne_true
  rw [touches, hcross, Bool.or_false, Bool.or_self, Bool.and_eq_true] at h
  exact h.2

/-- The look at the boxes is not rounded. -/
theorem overlapsBounds_exact (hmin : r.min.isFinite = true) (hmax : r.max.isFinite = true)
    (ha : s.a.isFinite = true) (hb : s.b.isFinite = true) :
    r.exact.overlapsBounds s.exact = r.overlapsBounds s := by
  obtain ⟨hminx, hminy⟩ := Bool.and_eq_true_iff.mp hmin
  obtain ⟨hmaxx, hmaxy⟩ := Bool.and_eq_true_iff.mp hmax
  obtain ⟨hax, hay⟩ := Bool.and_eq_true_iff.mp ha
  obtain ⟨hbx, hby⟩ := Bool.and_eq_true_iff.mp hb
  rw [Bool.eq_iff_iff, overlapsBounds_iff, Double.le_iff_value_le hminx hax,
    Double.le_iff_value_le hminx hbx, Double.le_iff_value_le hax hmaxx,
    Double.le_iff_value_le hbx hmaxx, Double.le_iff_value_le hminy hay,
    Double.le_iff_value_le hminy hby, Double.le_iff_value_le hay hmaxy,
    Double.le_iff_value_le hby hmaxy]
  simp only [overlapsBounds, Segment.minX, Segment.maxX, Segment.minY, Segment.maxY,
    Coord.rat_least, Coord.rat_greatest, Bool.and_eq_true, decide_eq_true_eq, le_max_iff,
    min_le_iff, and_assoc]
  rfl

theorem ends_of_crossesBoundary (h : r.crossesBoundary s = true) :
    s.a.isFinite = true ∧ s.b.isFinite = true := by
  rw [crossesBoundary, List.any_eq_true] at h
  obtain ⟨edge, -, hmeet⟩ := h
  obtain ⟨p, hp⟩ := Option.isSome_iff_exists.mp hmeet
  exact (Segment.ends_of_intersect hp).1

theorem touches_eq_reaches_iff :
    r.touches s = r.reaches s ↔ ¬(r.crossesBoundary s = true ∧ r.Beyond s) := by
  rw [touches_eq]
  by_cases hends : r.contains s.a = true ∨ r.contains s.b = true
  · have hoverlaps := overlapsBounds_of_contains hends
    rw [hoverlaps, Bool.true_and]
    exact iff_of_true rfl fun h => overlapsBounds_iff_not_beyond.mp hoverlaps h.2
  · have hreaches : r.reaches s = r.crossesBoundary s := by
      rw [Bool.eq_iff_iff, reaches_iff, or_iff_right hends]
    have hbeyond : r.Beyond s ↔ ¬r.overlapsBounds s = true := by
      rw [overlapsBounds_iff_not_beyond, not_not]
    rw [hreaches, hbeyond]
    cases r.overlapsBounds s <;> cases r.crossesBoundary s <;> simp

/-- The look at the boxes changes the test on walls exactly where a side is crossed by a segment
that lies beyond a side.  If the corners of the rectangle are finite and in order, the exact test
then finds neither an end in the rectangle nor a side crossed: the crossing is due to rounding
alone. -/
theorem touches_differs_by_rounding (r : Rect Float) (s : Segment Float) :
    (r.touches s = (r.contains s.a || r.contains s.b || r.crossesBoundary s) ↔
      ¬(r.crossesBoundary s = true ∧ r.Beyond s)) ∧
    (r.min.isFinite = true → r.max.isFinite = true → r.Ordered →
      r.touches s ≠ (r.contains s.a || r.contains s.b || r.crossesBoundary s) →
      (r.exact.contains s.exact.a || r.exact.contains s.exact.b ||
        r.exact.crossesBoundary s.exact) = false) := by
  refine ⟨touches_eq_reaches_iff, fun hmin hmax hordered hne => ?_⟩
  obtain ⟨hcross, hbeyond⟩ := not_not.mp (mt touches_eq_reaches_iff.mpr hne)
  obtain ⟨ha, hb⟩ := ends_of_crossesBoundary hcross
  have hclear : r.exact.overlapsBounds s.exact = false := by
    rw [overlapsBounds_exact hmin hmax ha hb, Bool.eq_false_iff]
    exact fun h => overlapsBounds_iff_not_beyond.mp h hbeyond
  -- Exact values never cross a side from beyond it.
  have htouches := (hordered.exact hmin hmax).touches_eq_reaches s.exact
  rw [touches_eq, hclear, Bool.false_and] at htouches
  exact htouches.symm

/-- A square of side 10 with a corner at the origin. -/
def square : Rect Float :=
  ofCorner 0 0 10 10

/-- An upright segment that ends `2 ^ (-60)` before the border of the square.  Its length is
rounded to 1, as if it ended on the border. -/
def stub : Segment Float :=
  ⟨⟨5, -1⟩, ⟨5, Float.ofBits 0xbc30000000000000⟩⟩

theorem touches_differs_by_rounding_stub :
    square.min.isFinite = true ∧ square.max.isFinite = true ∧ square.Ordered ∧
      square.touches stub ≠
        (square.contains stub.a || square.contains stub.b || square.crossesBoundary stub) ∧
      (square.crossesBoundary stub = true ∧ square.Beyond stub) ∧
      (square.exact.contains stub.exact.a || square.exact.contains stub.exact.b ||
        square.exact.crossesBoundary stub.exact) = false := by
  have hmin : square.min.isFinite = true := by decide +kernel
  have hmax : square.max.isFinite = true := by decide +kernel
  have hordered : square.Ordered := ⟨by decide +kernel, by decide +kernel⟩
  have hne : square.touches stub ≠
      (square.contains stub.a || square.contains stub.b || square.crossesBoundary stub) := by
    decide +kernel
  obtain ⟨hiff, hexact⟩ := touches_differs_by_rounding square stub
  exact ⟨hmin, hmax, hordered, hne, not_not.mp (mt hiff.mpr hne),
    hexact hmin hmax hordered hne⟩

/-- A side is crossed, and yet the segment is turned down. -/
theorem square_turns_down_stub :
    square.touches stub = false ∧
      (square.contains stub.a || square.contains stub.b || square.crossesBoundary stub) = true := by
  decide +kernel

end Rect

end Raceway
