import Raceway.Proofs.Geometry.Enclosure
/-!
# The common point of two segments

Over the rationals two segments that are not parallel have at most one point in common, and that
is the point where they meet.  Hence it does not matter which of the two is asked, nor which way
either of them runs.
-/

namespace Raceway

namespace Segment

/-- Whether the directions of two segments are multiples of one direction.  A single point is
parallel to every segment. -/
def Parallel (s t : Segment Rat) : Prop :=
  ∃ m n : Rat, (m ≠ 0 ∨ n ≠ 0) ∧ m * (s.b.x - s.a.x) = n * (t.b.x - t.a.x) ∧
    m * (s.b.y - s.a.y) = n * (t.b.y - t.a.y)

/-- The same segment, run through backwards. -/
def reverse (s : Segment Rat) : Segment Rat :=
  ⟨s.b, s.a⟩

variable {s t : Segment Rat}

/-! ## Parallel segments -/

theorem Parallel.cross_eq_zero (h : s.Parallel t) : s.cross t = 0 := by
  obtain ⟨m, n, hne, hx, hy⟩ := h
  rw [cross_eq]
  rcases hne with hm | hn
  · apply mul_left_cancel₀ hm
    linear_combination (t.b.y - t.a.y) * hx - (t.b.x - t.a.x) * hy
  · apply mul_left_cancel₀ hn
    linear_combination (s.b.y - s.a.y) * hx - (s.b.x - s.a.x) * hy

theorem parallel_of_eq (h : s.a = s.b) : s.Parallel t :=
  ⟨1, 0, Or.inl one_ne_zero, by rw [h]; ring, by rw [h]; ring⟩

theorem parallel_iff : s.Parallel t ↔ s.cross t = 0 := by
  refine ⟨Parallel.cross_eq_zero, fun hcross => ?_⟩
  by_cases hpoint : s.a = s.b
  · exact parallel_of_eq hpoint
  · obtain ⟨l, hx, hy⟩ := exists_ratio_of_cross_eq_zero hpoint hcross
    exact ⟨l, 1, Or.inr one_ne_zero, by rw [hx, one_mul], by rw [hy, one_mul]⟩

theorem Parallel.symm (h : s.Parallel t) : t.Parallel s := by
  rw [parallel_iff] at h ⊢
  rw [cross_swap, h, neg_zero]

theorem ends_ne_of_not_parallel (h : ¬s.Parallel t) : s.a ≠ s.b ∧ t.a ≠ t.b :=
  ⟨fun hs => h (parallel_of_eq hs), fun ht => h (parallel_of_eq ht).symm⟩

/-! ## The common point -/

theorem Holds.eq_of_cross_ne_zero {p q : Point Rat} (hcross : s.cross t ≠ 0) (hsp : s.Holds p)
    (htp : t.Holds p) (hsq : s.Holds q) (htq : t.Holds q) : q = p := by
  have hp := intersect_eq_some_iff.mpr ⟨hcross, hsp, htp⟩
  have hq := intersect_eq_some_iff.mpr ⟨hcross, hsq, htq⟩
  exact Option.some.inj (hq.symm.trans hp)

theorem intersect_eq_none_iff : s.intersect t = none ↔ s.Parallel t ∨ s.Clear t := by
  rw [Option.eq_none_iff_forall_ne_some, parallel_iff]
  constructor
  · intro hnone
    by_cases hcross : s.cross t = 0
    · exact Or.inl hcross
    · exact Or.inr fun p hs ht => hnone p (intersect_eq_some_iff.mpr ⟨hcross, hs, ht⟩)
  · rintro hcase p hp
    obtain ⟨hcross, hs, ht⟩ := intersect_eq_some_iff.mp hp
    rcases hcase with hzero | hclear
    · exact hcross hzero
    · exact hclear p hs ht

theorem cross_reverse_left (s t : Segment Rat) : s.reverse.cross t = -s.cross t := by
  rw [cross_eq, cross_eq, reverse]
  ring

theorem intersect_symm (s t : Segment Rat) : s.intersect t = t.intersect s := by
  refine Option.ext fun p => ?_
  rw [intersect_eq_some_iff, intersect_eq_some_iff, cross_swap s t, neg_ne_zero,
    and_comm (a := s.Holds p)]

theorem reverse_intersect (s t : Segment Rat) : s.reverse.intersect t = s.intersect t := by
  refine Option.ext fun p => ?_
  rw [intersect_eq_some_iff, intersect_eq_some_iff, cross_reverse_left, neg_ne_zero, reverse,
    reverse_holds_iff]

/-- The meeting point is what geometry says it is.  Two segments meet exactly if they are not
parallel and have a point in common, ends included; there is no other such point, and it is the one
that is found.  Neither of the two is a single point then.  Nothing changes if the segments change
places or one of them is run through backwards. -/
theorem intersect_is_common_point (s t : Segment Rat) :
    (∀ p, s.intersect t = some p ↔
        ¬s.Parallel t ∧ s.Holds p ∧ t.Holds p ∧ ∀ q, s.Holds q → t.Holds q → q = p) ∧
      (s.intersect t = none ↔ s.Parallel t ∨ s.Clear t) ∧
      (s.Parallel t ↔ s.cross t = 0) ∧
      (¬s.Parallel t → s.a ≠ s.b ∧ t.a ≠ t.b) ∧
      s.intersect t = t.intersect s ∧
      s.reverse.intersect t = s.intersect t ∧ s.intersect t.reverse = s.intersect t := by
  refine ⟨fun p => ?_, intersect_eq_none_iff, parallel_iff, ends_ne_of_not_parallel,
    intersect_symm s t, reverse_intersect s t, ?_⟩
  · rw [intersect_eq_some_iff, parallel_iff]
    constructor
    · rintro ⟨hcross, hs, ht⟩
      exact ⟨hcross, hs, ht, fun q => hs.eq_of_cross_ne_zero hcross ht⟩
    · rintro ⟨hcross, hs, ht, -⟩
      exact ⟨hcross, hs, ht⟩
  · rw [intersect_symm, reverse_intersect, intersect_symm]

end Segment

end Raceway
