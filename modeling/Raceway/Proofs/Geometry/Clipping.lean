import Raceway.Geometry.Rect
import Raceway.Proofs.Geometry.Meeting
/-!
# Segments and rectangles

A point that runs along a segment leaves a rectangle through a side that is not parallel to the
segment.  Hence a rectangle that has a point in common with a segment is noticed by the tests on
its corners and sides: `passes_of_holds` for a ray and `touches_of_holds` for a wall.  The test on
walls finds nothing else, so it is exact.
-/

namespace Raceway

namespace Segment

/-! ## Convexity along one axis -/

theorem between_of_unit {lo hi a b u : Rat} (hu0 : 0 ≤ u) (hu1 : u ≤ 1)
    (ha : lo ≤ a ∧ a ≤ hi) (hb : lo ≤ b ∧ b ≤ hi) :
    lo ≤ a + u * (b - a) ∧ a + u * (b - a) ≤ hi := by
  have hmix : a + u * (b - a) = (1 - u) * a + u * b := by ring
  rw [hmix]
  constructor
  · have h1 : (1 - u) * lo ≤ (1 - u) * a := mul_le_mul_of_nonneg_left ha.1 (by linarith)
    have h2 : u * lo ≤ u * b := mul_le_mul_of_nonneg_left hb.1 hu0
    linarith
  · have h1 : (1 - u) * a ≤ (1 - u) * hi := mul_le_mul_of_nonneg_left ha.2 (by linarith)
    have h2 : u * b ≤ u * hi := mul_le_mul_of_nonneg_left hb.2 hu0
    linarith

/-- A coordinate that moves up from `p` to `a` reaches every bound in between, and stays between
`p` and the bound until then. -/
theorem exists_reach_up {p a bound : Rat} (hpa : p < a) (hp : p ≤ bound) (ha : bound ≤ a) :
    ∃ r, 0 ≤ r ∧ r ≤ 1 ∧ p + r * (a - p) = bound ∧
      ∀ u, 0 ≤ u → u ≤ r → p ≤ p + u * (a - p) ∧ p + u * (a - p) ≤ bound := by
  have hpos : 0 < a - p := by linarith
  have hend : p + (bound - p) / (a - p) * (a - p) = bound := by
    rw [div_mul_cancel₀ _ hpos.ne']
    ring
  refine ⟨(bound - p) / (a - p), div_nonneg (by linarith) hpos.le, ?_, hend, ?_⟩
  · rw [div_le_iff₀ hpos]
    linarith
  · intro u hu0 hur
    have h1 : 0 ≤ u * (a - p) := mul_nonneg hu0 hpos.le
    have h2 : u * (a - p) ≤ (bound - p) / (a - p) * (a - p) :=
      mul_le_mul_of_nonneg_right hur hpos.le
    constructor <;> linarith

theorem exists_reach_down {p a bound : Rat} (hap : a < p) (hp : bound ≤ p) (ha : a ≤ bound) :
    ∃ r, 0 ≤ r ∧ r ≤ 1 ∧ p + r * (a - p) = bound ∧
      ∀ u, 0 ≤ u → u ≤ r → bound ≤ p + u * (a - p) ∧ p + u * (a - p) ≤ p := by
  obtain ⟨r, hr0, hr1, hend, hstay⟩ :=
    exists_reach_up (neg_lt_neg hap) (neg_le_neg hp) (neg_le_neg ha)
  refine ⟨r, hr0, hr1, by linear_combination -hend, fun u hu0 hur => ?_⟩
  have hu := hstay u hu0 hur
  constructor <;> linarith

/-- How far a coordinate can move from `p` to `a` before it leaves the interval of `p`: all the
way, or up to one of the bounds. -/
theorem exists_exit {lo hi p a : Rat} (hlo : lo ≤ p) (hhi : p ≤ hi) :
    ∃ r, 0 ≤ r ∧ r ≤ 1 ∧
      (∀ u, 0 ≤ u → u ≤ r → lo ≤ p + u * (a - p) ∧ p + u * (a - p) ≤ hi) ∧
      (r = 1 ∨ a ≠ p ∧ (p + r * (a - p) = lo ∨ p + r * (a - p) = hi)) := by
  rcases lt_or_ge a lo with halo | halo
  · obtain ⟨r, hr0, hr1, hend, hstay⟩ :=
      exists_reach_down (halo.trans_le hlo) hlo halo.le
    refine ⟨r, hr0, hr1, fun u hu0 hur => ?_, Or.inr ⟨(halo.trans_le hlo).ne, Or.inl hend⟩⟩
    exact ⟨(hstay u hu0 hur).1, (hstay u hu0 hur).2.trans hhi⟩
  rcases lt_or_ge hi a with hahi | hahi
  · obtain ⟨r, hr0, hr1, hend, hstay⟩ :=
      exists_reach_up (hhi.trans_lt hahi) hhi hahi.le
    refine ⟨r, hr0, hr1, fun u hu0 hur => ?_, Or.inr ⟨(hhi.trans_lt hahi).ne', Or.inr hend⟩⟩
    exact ⟨hlo.trans (hstay u hu0 hur).1, (hstay u hu0 hur).2⟩
  · exact ⟨1, zero_le_one, le_rfl,
      fun u hu0 hu1 => between_of_unit hu0 hu1 ⟨hlo, hhi⟩ ⟨halo, hahi⟩, Or.inl rfl⟩

/-! ## Crossing the sides -/

theorem exists_param_of_between {a b x : Rat} (hab : a ≠ b)
    (hx : a ≤ x ∧ x ≤ b ∨ b ≤ x ∧ x ≤ a) : ∃ u, 0 ≤ u ∧ u ≤ 1 ∧ a + u * (b - a) = x := by
  rcases hx with ⟨hax, hxb⟩ | ⟨hbx, hxa⟩
  · obtain ⟨u, hu0, hu1, hend, -⟩ :=
      exists_reach_up (lt_of_le_of_ne (hax.trans hxb) hab) hax hxb
    exact ⟨u, hu0, hu1, hend⟩
  · obtain ⟨u, hu0, hu1, hend, -⟩ :=
      exists_reach_down (lt_of_le_of_ne (hbx.trans hxa) hab.symm) hxa hbx
    exact ⟨u, hu0, hu1, hend⟩

theorem intersects_upright {s : Segment Rat} {x y top bottom : Rat} (hs : s.Holds ⟨x, y⟩)
    (hx : s.a.x ≠ s.b.x) (hside : top ≠ bottom)
    (hy : top ≤ y ∧ y ≤ bottom ∨ bottom ≤ y ∧ y ≤ top) :
    s.intersects ⟨⟨x, top⟩, ⟨x, bottom⟩⟩ = true := by
  obtain ⟨u, hu0, hu1, hu⟩ := exists_param_of_between hside hy
  rw [intersects_iff]
  refine ⟨?_, ⟨x, y⟩, hs, u, hu0, hu1, ?_⟩
  · rw [cross_eq, sub_self, zero_mul, sub_zero]
    exact mul_ne_zero (sub_ne_zero.mpr hside.symm) (sub_ne_zero.mpr hx.symm)
  · simp [point, hu]

theorem intersects_level {s : Segment Rat} {x y left right : Rat} (hs : s.Holds ⟨x, y⟩)
    (hy : s.a.y ≠ s.b.y) (hside : left ≠ right)
    (hx : left ≤ x ∧ x ≤ right ∨ right ≤ x ∧ x ≤ left) :
    s.intersects ⟨⟨left, y⟩, ⟨right, y⟩⟩ = true := by
  obtain ⟨u, hu0, hu1, hu⟩ := exists_param_of_between hside hx
  rw [intersects_iff]
  refine ⟨?_, ⟨x, y⟩, hs, u, hu0, hu1, ?_⟩
  · rw [cross_eq, sub_self, zero_mul, zero_sub, neg_ne_zero]
    exact mul_ne_zero (sub_ne_zero.mpr hside.symm) (sub_ne_zero.mpr hy.symm)
  · simp [point, hu]

theorem point_point (s : Segment Rat) (u v r : Rat) :
    point ⟨s.point u, s.point v⟩ r = s.point (u + r * (v - u)) := by
  simp only [point, Point.mk.injEq]
  constructor <;> ring

theorem Holds.between {s : Segment Rat} {p q : Point Rat} (hp : s.Holds p) (hq : s.Holds q)
    {r : Rat} (hr0 : 0 ≤ r) (hr1 : r ≤ 1) : s.Holds (point ⟨p, q⟩ r) := by
  obtain ⟨u, hu0, hu1, rfl⟩ := hp
  obtain ⟨v, hv0, hv1, rfl⟩ := hq
  obtain ⟨hlow, hhigh⟩ := between_of_unit hr0 hr1 ⟨hu0, hu1⟩ ⟨hv0, hv1⟩
  exact ⟨u + r * (v - u), hlow, hhigh, (s.point_point u v r).symm⟩

theorem holds_a (s : Segment Rat) : s.Holds s.a :=
  ⟨0, le_rfl, zero_le_one, by simp [point]⟩

theorem holds_b (s : Segment Rat) : s.Holds s.b :=
  ⟨1, zero_le_one, le_rfl, by simp [point]⟩

theorem Holds.x_ne {s : Segment Rat} {p : Point Rat} (hp : s.Holds p) (hx : s.b.x ≠ p.x) :
    s.a.x ≠ s.b.x := by
  obtain ⟨u, -, -, rfl⟩ := hp
  intro h
  apply hx
  simp [point, h]

theorem Holds.y_ne {s : Segment Rat} {p : Point Rat} (hp : s.Holds p) (hy : s.b.y ≠ p.y) :
    s.a.y ≠ s.b.y := by
  obtain ⟨u, -, -, rfl⟩ := hp
  intro h
  apply hy
  simp [point, h]

end Segment

namespace Rect

/-- A rectangle with an inside. -/
def Proper (r : Rect Rat) : Prop :=
  r.min.x < r.max.x ∧ r.min.y < r.max.y

theorem contains_iff {r : Rect Rat} {p : Point Rat} :
    r.contains p = true ↔
      (r.min.x ≤ p.x ∧ p.x ≤ r.max.x) ∧ r.min.y ≤ p.y ∧ p.y ≤ r.max.y := by
  simp [contains, and_assoc]

theorem contains_of_holds {r : Rect Rat} {s : Segment Rat} {p : Point Rat}
    (ha : r.contains s.a = true) (hb : r.contains s.b = true) (hp : s.Holds p) :
    r.contains p = true := by
  obtain ⟨u, hu0, hu1, rfl⟩ := hp
  rw [contains_iff] at ha hb ⊢
  exact ⟨Segment.between_of_unit hu0 hu1 ha.1 hb.1, Segment.between_of_unit hu0 hu1 ha.2 hb.2⟩

theorem crossesBoundary_iff {r : Rect Rat} {s : Segment Rat} :
    r.crossesBoundary s = true ↔ ∃ edge ∈ r.edges, s.intersects edge = true := by
  rw [crossesBoundary, List.any_eq_true]

theorem crossesBoundary_upright {r : Rect Rat} (hr : r.Proper) {s : Segment Rat} {q : Point Rat}
    (hs : s.Holds q) (hx : s.a.x ≠ s.b.x) (hqx : q.x = r.min.x ∨ q.x = r.max.x)
    (hqy : r.min.y ≤ q.y ∧ q.y ≤ r.max.y) : r.crossesBoundary s = true := by
  obtain ⟨x, y⟩ := q
  rw [crossesBoundary_iff]
  rcases hqx with rfl | rfl
  · exact ⟨⟨⟨r.min.x, r.max.y⟩, r.min⟩, by simp [edges],
      Segment.intersects_upright hs hx hr.2.ne' (Or.inr hqy)⟩
  · exact ⟨⟨⟨r.max.x, r.min.y⟩, r.max⟩, by simp [edges],
      Segment.intersects_upright hs hx hr.2.ne (Or.inl hqy)⟩

theorem crossesBoundary_level {r : Rect Rat} (hr : r.Proper) {s : Segment Rat} {q : Point Rat}
    (hs : s.Holds q) (hy : s.a.y ≠ s.b.y) (hqy : q.y = r.min.y ∨ q.y = r.max.y)
    (hqx : r.min.x ≤ q.x ∧ q.x ≤ r.max.x) : r.crossesBoundary s = true := by
  obtain ⟨x, y⟩ := q
  rw [crossesBoundary_iff]
  rcases hqy with rfl | rfl
  · exact ⟨⟨r.min, ⟨r.max.x, r.min.y⟩⟩, by simp [edges],
      Segment.intersects_level hs hy hr.1.ne (Or.inl hqx)⟩
  · exact ⟨⟨r.max, ⟨r.min.x, r.max.y⟩⟩, by simp [edges],
      Segment.intersects_level hs hy hr.1.ne' (Or.inr hqx)⟩

/-- A segment with a point in a rectangle ends in it or crosses its border.  The end of the
segment decides: on the way to it, one of the two coordinates is the first to leave. -/
theorem passes_of_holds {r : Rect Rat} (hr : r.Proper) {s : Segment Rat} {p : Point Rat}
    (hs : s.Holds p) (hp : r.contains p = true) :
    r.contains s.b = true ∨ r.crossesBoundary s = true := by
  rw [contains_iff] at hp
  obtain ⟨⟨hx0, hx1⟩, hy0, hy1⟩ := hp
  obtain ⟨rx, hrx0, hrx1, hstayx, hendx⟩ := Segment.exists_exit (a := s.b.x) hx0 hx1
  obtain ⟨ry, hry0, hry1, hstayy, hendy⟩ := Segment.exists_exit (a := s.b.y) hy0 hy1
  by_cases hend : rx = 1 ∧ ry = 1
  · left
    have hx := hstayx 1 zero_le_one hend.1.ge
    have hy := hstayy 1 zero_le_one hend.2.ge
    rw [contains_iff]
    simpa using And.intro hx hy
  · right
    rcases le_total rx ry with hle | hle
    · have hlt : rx ≠ 1 := fun h1 => hend ⟨h1, le_antisymm hry1 (h1 ▸ hle)⟩
      obtain ⟨hne, hat⟩ := hendx.resolve_left hlt
      exact crossesBoundary_upright hr (hs.between s.holds_b hrx0 hrx1) (hs.x_ne hne) hat
        (hstayy rx hrx0 hle)
    · have hlt : ry ≠ 1 := fun h1 => hend ⟨le_antisymm hrx1 (h1 ▸ hle), h1⟩
      obtain ⟨hne, hat⟩ := hendy.resolve_left hlt
      exact crossesBoundary_level hr (hs.between s.holds_b hry0 hry1) (hs.y_ne hne) hat
        (hstayx ry hry0 hle)

/-! ## The test on walls -/

theorem overlapsBounds_of_holds {r : Rect Rat} {s : Segment Rat} {p : Point Rat}
    (hs : s.Holds p) (hp : r.contains p = true) : r.overlapsBounds s = true := by
  obtain ⟨u, hu0, hu1, rfl⟩ := hs
  rw [contains_iff] at hp
  obtain ⟨⟨hx0, hx1⟩, hy0, hy1⟩ := hp
  have hx := Segment.between_of_unit hu0 hu1 (⟨min_le_left s.a.x s.b.x, le_max_left s.a.x s.b.x⟩)
    ⟨min_le_right s.a.x s.b.x, le_max_right s.a.x s.b.x⟩
  have hy := Segment.between_of_unit hu0 hu1 (⟨min_le_left s.a.y s.b.y, le_max_left s.a.y s.b.y⟩)
    ⟨min_le_right s.a.y s.b.y, le_max_right s.a.y s.b.y⟩
  simp only [overlapsBounds, Segment.minX, Segment.maxX, Segment.minY, Segment.maxY,
    Coord.rat_least, Coord.rat_greatest, Bool.and_eq_true, decide_eq_true_eq]
  exact ⟨⟨⟨hx0.trans hx.2, hx.1.trans hx1⟩, hy0.trans hy.2⟩, hy.1.trans hy1⟩

theorem touches_of_holds {r : Rect Rat} (hr : r.Proper) {s : Segment Rat} {p : Point Rat}
    (hs : s.Holds p) (hp : r.contains p = true) : r.touches s = true := by
  rw [touches, overlapsBounds_of_holds hs hp, Bool.true_and, Bool.or_assoc, Bool.or_eq_true,
    Bool.or_eq_true]
  exact Or.inr (passes_of_holds hr hs hp)

/-- A rectangle with its corners in order. It may be a mere line or point. -/
def Ordered {α : Type} [Coord α] (r : Rect α) : Prop :=
  r.min.x ≤ r.max.x ∧ r.min.y ≤ r.max.y

/-- The test on walls without the look at the boxes: an end in the rectangle, or a side crossed. -/
def reaches {α : Type} [Coord α] (r : Rect α) (s : Segment α) : Bool :=
  r.contains s.a || r.contains s.b || r.crossesBoundary s

theorem touches_eq {α : Type} [Coord α] (r : Rect α) (s : Segment α) :
    r.touches s = (r.overlapsBounds s && r.reaches s) := rfl

theorem reaches_iff {α : Type} [Coord α] {r : Rect α} {s : Segment α} : r.reaches s = true ↔
    (r.contains s.a = true ∨ r.contains s.b = true) ∨ r.crossesBoundary s = true := by
  rw [reaches, Bool.or_eq_true, Bool.or_eq_true]

theorem Proper.ordered {r : Rect Rat} (hr : r.Proper) : r.Ordered :=
  ⟨hr.1.le, hr.2.le⟩

theorem Ordered.contains_of_mem_edges {r : Rect Rat} (hr : r.Ordered) {edge : Segment Rat}
    (hedge : edge ∈ r.edges) : r.contains edge.a = true ∧ r.contains edge.b = true := by
  have hx := hr.1
  have hy := hr.2
  simp only [edges, List.mem_cons, List.not_mem_nil, or_false] at hedge
  rcases hedge with rfl | rfl | rfl | rfl <;> simp [contains_iff, hx, hy]

/-- A segment that passes the test has a point in the rectangle: one of its ends, or the point in
which it crosses a side. -/
theorem exists_holds_of_reaches {r : Rect Rat} (hr : r.Ordered) {s : Segment Rat}
    (h : r.reaches s = true) : ∃ p, s.Holds p ∧ r.contains p = true := by
  rcases reaches_iff.mp h with (ha | hb) | hcross
  · exact ⟨s.a, s.holds_a, ha⟩
  · exact ⟨s.b, s.holds_b, hb⟩
  · obtain ⟨edge, hedge, hmeet⟩ := crossesBoundary_iff.mp hcross
    obtain ⟨-, p, hs, hp⟩ := Segment.intersects_iff.mp hmeet
    obtain ⟨ha, hb⟩ := hr.contains_of_mem_edges hedge
    exact ⟨p, hs, contains_of_holds ha hb hp⟩

/-- Without rounding the look at the boxes saves work and nothing else. -/
theorem Ordered.touches_eq_reaches {r : Rect Rat} (hr : r.Ordered) (s : Segment Rat) :
    r.touches s = r.reaches s := by
  rw [touches_eq]
  cases hreaches : r.reaches s with
  | false => rw [Bool.and_false]
  | true =>
      obtain ⟨p, hs, hp⟩ := exists_holds_of_reaches hr hreaches
      rw [overlapsBounds_of_holds hs hp, Bool.and_true]

theorem exists_holds_of_touches {r : Rect Rat} (hr : r.Proper) {s : Segment Rat}
    (h : r.touches s = true) : ∃ p, s.Holds p ∧ r.contains p = true := by
  rw [hr.ordered.touches_eq_reaches] at h
  exact exists_holds_of_reaches hr.ordered h

/-- The test on walls is exact: a segment touches a rectangle with an inside exactly when the two
have a point in common, borders and ends included. -/
theorem touches_ofCorner_iff {x y width height : Rat} (hwidth : 0 < width) (hheight : 0 < height)
    (s : Segment Rat) :
    (ofCorner x y width height).touches s = true ↔
      ∃ p, s.Holds p ∧ (x ≤ p.x ∧ p.x ≤ x + width) ∧ y ≤ p.y ∧ p.y ≤ y + height := by
  have hproper : (ofCorner x y width height).Proper :=
    ⟨lt_add_of_pos_right x hwidth, lt_add_of_pos_right y hheight⟩
  constructor
  · intro h
    obtain ⟨p, hs, hp⟩ := exists_holds_of_touches hproper h
    exact ⟨p, hs, contains_iff.mp hp⟩
  · rintro ⟨p, hs, hp⟩
    exact touches_of_holds hproper hs (contains_iff.mpr hp)

/-- A segment that grazes one corner, and one that passes the corner by. -/
theorem touches_ofCorner_iff_corner :
    (0 : Rat) < 10 ∧ (0 : Rat) < 6 ∧
      (∃ p, Segment.Holds ⟨⟨9, 8⟩, ⟨12, 2⟩⟩ p ∧ ((0 : Rat) ≤ p.x ∧ p.x ≤ 0 + 10) ∧
        (0 : Rat) ≤ p.y ∧ p.y ≤ 0 + 6) ∧
      ¬∃ p, Segment.Holds ⟨⟨9, 9⟩, ⟨12, 3⟩⟩ p ∧ ((0 : Rat) ≤ p.x ∧ p.x ≤ 0 + 10) ∧
        (0 : Rat) ≤ p.y ∧ p.y ≤ 0 + 6 := by
  have hwidth : (0 : Rat) < 10 := by decide
  have hheight : (0 : Rat) < 6 := by decide
  have hgrazes : (ofCorner (0 : Rat) 0 10 6).touches ⟨⟨9, 8⟩, ⟨12, 2⟩⟩ = true := by
    decide +kernel
  have hpasses : (ofCorner (0 : Rat) 0 10 6).touches ⟨⟨9, 9⟩, ⟨12, 3⟩⟩ ≠ true := by
    decide +kernel
  refine ⟨hwidth, hheight, (touches_ofCorner_iff hwidth hheight _).mp hgrazes, fun hpoint => ?_⟩
  exact hpasses ((touches_ofCorner_iff hwidth hheight _).mpr hpoint)

end Rect

end Raceway
