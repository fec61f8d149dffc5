import Raceway.Layout
import Raceway.Proofs.Geometry.Clipping
/-!
# Inside and outside of a ring

By the even-odd rule a point is inside a closed ring if a half-line from it crosses an odd number
of segments.  A way that starts on one side of a ring and ends on the other meets a segment, and
one that is not parallel to it: where the way runs along a segment, it meets a neighbour as well.
-/

namespace Raceway

namespace Segment

/-! ## The even-odd rule -/

/-- The parameter at which the line through a segment reaches a height. -/
def level (s : Segment Rat) (height : Rat) : Rat :=
  (height - s.a.y) / (s.b.y - s.a.y)

/-- Whether the half-line from a point to the right crosses a segment: just one end of the segment
is above the point, and the segment passes the height of the point to the right of it. -/
def CrossedFrom (p : Point Rat) (s : Segment Rat) : Prop :=
  (p.y < s.a.y ↔ ¬p.y < s.b.y) ∧ p.x < (s.point (s.level p.y)).x

instance (p : Point Rat) (s : Segment Rat) : Decidable (s.CrossedFrom p) :=
  inferInstanceAs (Decidable (_ ∧ _))

/-- Whether a point is inside a ring. -/
def Encloses (ring : List (Segment Rat)) (p : Point Rat) : Prop :=
  ring.countP (fun s => s.CrossedFrom p) % 2 = 1

instance (ring : List (Segment Rat)) (p : Point Rat) : Decidable (Encloses ring p) :=
  inferInstanceAs (Decidable (_ = _))

/-- Where a segment with one end above a height reaches it. -/
theorem level_spec {s : Segment Rat} {height : Rat} (h : height < s.a.y ↔ ¬height < s.b.y) :
    s.Holds (s.point (s.level height)) ∧ (s.point (s.level height)).y = height := by
  have hne : s.a.y ≠ s.b.y := by
    intro heq
    rw [heq] at h
    exact iff_not_self h
  have hbetween : s.a.y ≤ height ∧ height ≤ s.b.y ∨ s.b.y ≤ height ∧ height ≤ s.a.y := by
    by_cases ha : height < s.a.y
    · exact Or.inr ⟨not_lt.mp (h.mp ha), ha.le⟩
    · exact Or.inl ⟨not_lt.mp ha, (by_contra fun hb => ha (h.mpr hb) : height < s.b.y).le⟩
  obtain ⟨u, hu0, hu1, hu⟩ := exists_param_of_between hne hbetween
  have hlevel : s.level height = u := by
    rw [level, div_eq_iff (sub_ne_zero.mpr hne.symm), ← hu, add_sub_cancel_left]
  rw [hlevel]
  exact ⟨⟨u, hu0, hu1, rfl⟩, hu⟩

/-! ## The side of a way -/

/-- How far a point is to the right of the line through a way that goes up, times the height of
the way. -/
def offset (way : Segment Rat) (p : Point Rat) : Rat :=
  (p.x - way.a.x) * (way.b.y - way.a.y) - (p.y - way.a.y) * (way.b.x - way.a.x)

/-- Whether a segment has no point in common with a way. -/
def Clear (way s : Segment Rat) : Prop :=
  ∀ p, way.Holds p → ¬s.Holds p

variable {way s : Segment Rat}

theorem holds_of_offset_eq_zero (hup : way.a.y < way.b.y) {p : Point Rat}
    (hp : way.a.y ≤ p.y ∧ p.y ≤ way.b.y) (h : way.offset p = 0) : way.Holds p := by
  obtain ⟨u, hu0, hu1, hy⟩ := exists_param_of_between hup.ne (Or.inl hp)
  have hx : way.a.x + u * (way.b.x - way.a.x) = p.x := by
    apply mul_right_cancel₀ (sub_ne_zero.mpr hup.ne')
    rw [offset] at h
    linear_combination -h + (way.b.x - way.a.x) * hy
  refine ⟨u, hu0, hu1, ?_⟩
  rw [point, hx, hy]

theorem offset_point (way s : Segment Rat) (u : Rat) :
    way.offset (s.point u) = way.offset s.a + u * (way.offset s.b - way.offset s.a) := by
  simp only [offset, point]
  ring

theorem Clear.offset_pos (hclear : way.Clear s) (hup : way.a.y < way.b.y) {p q : Point Rat}
    (hp : s.Holds p) (hq : s.Holds q) (hpy : way.a.y ≤ p.y ∧ p.y ≤ way.b.y)
    (hqy : way.a.y ≤ q.y ∧ q.y ≤ way.b.y) (h : 0 < way.offset p) : 0 < way.offset q := by
  by_contra hle
  -- Between the two points the segment would have to cross the line.
  obtain ⟨r, hr0, hr1, hend, -⟩ :=
    exists_reach_down (h.trans_le' (not_lt.mp hle)) h.le (not_lt.mp hle)
  refine hclear (point ⟨p, q⟩ r) ?_ (hp.between hq hr0 hr1)
  have hbetween : way.a.y ≤ (point ⟨p, q⟩ r).y ∧ (point ⟨p, q⟩ r).y ≤ way.b.y :=
    between_of_unit hr0 hr1 hpy hqy
  exact holds_of_offset_eq_zero hup hbetween ((offset_point _ _ _).trans hend)

theorem Clear.exists_side (hclear : way.Clear s) (hup : way.a.y < way.b.y) :
    ∃ side : Prop, ∀ p, s.Holds p → way.a.y ≤ p.y ∧ p.y ≤ way.b.y →
      (0 < way.offset p ↔ side) := by
  refine ⟨∃ q, s.Holds q ∧ (way.a.y ≤ q.y ∧ q.y ≤ way.b.y) ∧ 0 < way.offset q,
    fun p hp hpy => ⟨fun h => ⟨p, hp, hpy, h⟩, ?_⟩⟩
  rintro ⟨q, hq, hqy, h⟩
  exact hclear.offset_pos hup hq hp hqy hpy h

/-- Whether a point lies to the right of a way that goes up, at a height of the way. -/
def Beside (way : Segment Rat) (p : Point Rat) : Prop :=
  (way.a.y < p.y ∧ ¬way.b.y < p.y) ∧ 0 < way.offset p

theorem strips_iff {a b a' b' side : Prop} (ha : a' → a) (hb : b' → b) :
    ((a ↔ ¬b) ∧ side ↔ (a' ↔ ¬b') ∧ side) ↔ ((a ∧ ¬a') ∧ side ↔ (b ∧ ¬b') ∧ side) := by
  grind

/-- Between the two half-lines from the ends of a way lie the points beside it. A segment that is
clear of the way gets there across just one of the half-lines. -/
theorem Clear.crossedFrom_iff (hclear : way.Clear s) (hup : way.a.y < way.b.y) :
    (s.CrossedFrom way.a ↔ s.CrossedFrom way.b) ↔ (way.Beside s.a ↔ way.Beside s.b) := by
  obtain ⟨side, hside⟩ := hclear.exists_side hup
  have hpos : 0 < way.b.y - way.a.y := sub_pos.mpr hup
  have hstart : s.CrossedFrom way.a ↔ (way.a.y < s.a.y ↔ ¬way.a.y < s.b.y) ∧ side := by
    refine and_congr_right fun h => ?_
    obtain ⟨hq, hy⟩ := level_spec h
    rw [← hside _ hq ⟨hy.ge, hy.le.trans hup.le⟩, offset, hy, sub_self, zero_mul, sub_zero,
      mul_pos_iff_of_pos_right hpos, sub_pos]
  have hend : s.CrossedFrom way.b ↔ (way.b.y < s.a.y ↔ ¬way.b.y < s.b.y) ∧ side := by
    refine and_congr_right fun h => ?_
    obtain ⟨hq, hy⟩ := level_spec h
    rw [← hside _ hq ⟨hup.le.trans hy.ge, hy.le⟩, offset, hy, mul_comm (way.b.y - way.a.y),
      ← sub_mul, sub_sub_sub_cancel_right, mul_pos_iff_of_pos_right hpos, sub_pos]
  have hbeside {p : Point Rat} (hp : s.Holds p) :
      way.Beside p ↔ (way.a.y < p.y ∧ ¬way.b.y < p.y) ∧ side :=
    and_congr_right fun h => hside p hp ⟨h.1.le, not_lt.mp h.2⟩
  rw [hstart, hend, hbeside s.holds_a, hbeside s.holds_b]
  exact strips_iff hup.trans hup.trans

/-- A level way: the half-lines from its ends differ by the way alone. -/
theorem Clear.crossedFrom_iff_of_level (hclear : way.Clear s) (hlevel : way.a.y = way.b.y) :
    s.CrossedFrom way.a ↔ s.CrossedFrom way.b := by
  rw [CrossedFrom, CrossedFrom, ← hlevel]
  refine and_congr_right fun h => ?_
  obtain ⟨hq, hy⟩ := level_spec h
  set q := s.point (s.level way.a.y)
  by_contra hne
  have hbetween : way.a.x ≤ q.x ∧ q.x ≤ way.b.x ∨ way.b.x ≤ q.x ∧ q.x ≤ way.a.x := by
    rcases lt_or_ge way.a.x q.x with ha | ha <;> rcases lt_or_ge way.b.x q.x with hb | hb
    · exact absurd (iff_of_true ha hb) hne
    · exact Or.inl ⟨ha.le, hb⟩
    · exact Or.inr ⟨hb.le, ha⟩
    · exact absurd (iff_of_false ha.not_gt hb.not_gt) hne
  have hx : way.a.x ≠ way.b.x := fun heq => hne (by rw [heq])
  obtain ⟨u, hu0, hu1, hu⟩ := exists_param_of_between hx hbetween
  refine hclear q ⟨u, hu0, hu1, ?_⟩ hq
  rw [point, hu, ← hlevel, sub_self, mul_zero, add_zero, ← hy]

theorem reverse_holds_iff {p : Point Rat} :
    (⟨way.b, way.a⟩ : Segment Rat).Holds p ↔ way.Holds p := by
  have hreverse (t : Segment Rat) (h : t.Holds p) : (⟨t.b, t.a⟩ : Segment Rat).Holds p := by
    obtain ⟨u, hu0, hu1, rfl⟩ := h
    refine ⟨1 - u, by linarith, by linarith, ?_⟩
    simp only [point, Point.mk.injEq]
    constructor <;> ring
  exact ⟨hreverse ⟨way.b, way.a⟩, hreverse way⟩

/-! ## Rings -/

section

variable {start a : Point Rat} {rest : List (Point Rat)}

/-- On the segments from `a` to `start`, what changes from end to end changes an even number of
times exactly if it is the same at both ends. -/
theorem countP_closing {P Q : Segment Rat → Prop} [DecidablePred P] [DecidablePred Q]
    {f : Point Rat → Prop} (h : ∀ s ∈ closing start a rest, (P s ↔ Q s) ↔ (f s.a ↔ f s.b)) :
    (closing start a rest).countP P % 2 = (closing start a rest).countP Q % 2 ↔
      (f a ↔ f start) := by
  induction rest generalizing a with
  | nil =>
      have hlast := h ⟨a, start⟩ List.mem_cons_self
      simp only [closing, List.countP_cons, List.countP_nil]
      grind
  | cons b rest ih =>
      have hfirst := h ⟨a, b⟩ List.mem_cons_self
      have hrest := ih fun s hs => h s (List.mem_cons_of_mem _ hs)
      simp only [closing, List.countP_cons]
      grind

theorem ends_iff_of_closing {f : Point Rat → Prop}
    (h : ∀ s ∈ closing start a rest, f s.a ↔ f s.b) :
    ∀ s ∈ closing start a rest, (f s.a ↔ f a) ∧ (f s.b ↔ f a) := by
  induction rest generalizing a with
  | nil =>
      intro s hs
      obtain rfl := List.mem_singleton.mp hs
      exact ⟨Iff.rfl, (h _ hs).symm⟩
  | cons b rest ih =>
      have hfirst := h ⟨a, b⟩ List.mem_cons_self
      intro s hs
      rcases List.mem_cons.mp hs with rfl | hs
      · exact ⟨Iff.rfl, hfirst.symm⟩
      · obtain ⟨ha, hb⟩ := ih (fun s hs => h s (List.mem_cons_of_mem _ hs)) s hs
        exact ⟨ha.trans hfirst.symm, hb.trans hfirst.symm⟩

theorem encloses_iff_of_countP {ring : List (Segment Rat)} {p q : Point Rat}
    (h : ring.countP (fun s => s.CrossedFrom p) % 2 = ring.countP (fun s => s.CrossedFrom q) % 2) :
    Encloses ring p ↔ Encloses ring q := by
  rw [Encloses, Encloses, h]

theorem encloses_iff_of_up (hclear : ∀ s ∈ closing start start rest, way.Clear s)
    (hup : way.a.y < way.b.y) :
    Encloses (closing start start rest) way.a ↔ Encloses (closing start start rest) way.b :=
  encloses_iff_of_countP <|
    (countP_closing fun s hs => (hclear s hs).crossedFrom_iff hup).mpr Iff.rfl

/-- Both ends of a way that is clear of a ring are inside, or both are outside. -/
theorem encloses_iff_of_clear (hclear : ∀ s ∈ closing start start rest, way.Clear s) :
    Encloses (closing start start rest) way.a ↔ Encloses (closing start start rest) way.b := by
  rcases lt_trichotomy way.a.y way.b.y with hup | hlevel | hdown
  · exact encloses_iff_of_up hclear hup
  · apply encloses_iff_of_countP
    congr 1
    apply List.countP_congr
    intro s hs
    simpa using (hclear s hs).crossedFrom_iff_of_level hlevel
  · have hreverse : ∀ s ∈ closing start start rest, Clear ⟨way.b, way.a⟩ s :=
      fun s hs p hp => hclear s hs p (reverse_holds_iff.mp hp)
    exact (encloses_iff_of_up hreverse hdown).symm

end

/-! ## Segments along a way -/

theorem exists_ratio_of_cross_eq_zero (hne : way.a ≠ way.b) (h : way.cross s = 0) :
    ∃ l, s.b.x - s.a.x = l * (way.b.x - way.a.x) ∧ s.b.y - s.a.y = l * (way.b.y - way.a.y) := by
  rw [cross_eq] at h
  by_cases hx : way.b.x - way.a.x = 0
  · have hy : way.b.y - way.a.y ≠ 0 := by
      intro hy
      exact hne (Point.ext (sub_eq_zero.mp hx).symm (sub_eq_zero.mp hy).symm)
    refine ⟨(s.b.y - s.a.y) / (way.b.y - way.a.y), ?_, (div_mul_cancel₀ _ hy).symm⟩
    rw [hx, mul_zero, zero_sub, neg_eq_zero, mul_eq_zero] at h
    rw [hx, mul_zero, h.resolve_right hy]
  · refine ⟨(s.b.x - s.a.x) / (way.b.x - way.a.x), (div_mul_cancel₀ _ hx).symm, ?_⟩
    rw [div_mul_eq_mul_div, eq_div_iff hx]
    linear_combination h

/-- A parallel segment that has a point in common with a way, but not its ends, goes on along the
way: to leave it, it would have to pass an end. -/
theorem Holds.b_of_parallel {p : Point Rat} (hway : way.Holds p) (hs : s.Holds p)
    (hcross : way.cross s = 0) (ha : ¬s.Holds way.a) (hb : ¬s.Holds way.b) : way.Holds s.b := by
  have hne : way.a ≠ way.b := by
    rintro heq
    obtain ⟨u, -, -, rfl⟩ := hway
    apply ha
    rwa [point, ← heq, sub_self, sub_self, mul_zero, add_zero, add_zero] at hs
  obtain ⟨l, hlx, hly⟩ := exists_ratio_of_cross_eq_zero hne hcross
  obtain ⟨u, hu0, hu1, rfl⟩ := hway
  obtain ⟨t, -, -, ht⟩ := id hs
  have hend : s.b = way.point (u + (1 - t) * l) := by
    simp only [point, Point.mk.injEq] at ht
    apply Point.ext
    · simp only [point]
      linear_combination ht.1 + (1 - t) * hlx
    · simp only [point]
      linear_combination ht.2 + (1 - t) * hly
  set w := u + (1 - t) * l
  refine ⟨w, ?_, ?_, hend.symm⟩
  · by_contra! hlow
    obtain ⟨r, hr0, hr1, hr, -⟩ := exists_reach_down (hlow.trans_le hu0) hu0 hlow.le
    have hmeet := hs.between s.holds_b hr0 hr1
    rw [hend, point_point, hr] at hmeet
    exact ha (by simpa [point] using hmeet)
  · by_contra! hhigh
    obtain ⟨r, hr0, hr1, hr, -⟩ := exists_reach_up (hu1.trans_lt hhigh) hu1 hhigh.le
    have hmeet := hs.between s.holds_b hr0 hr1
    rw [hend, point_point, hr] at hmeet
    exact hb (by simpa [point] using hmeet)

theorem cross_reverse_eq_zero (h : way.cross s = 0) : way.cross ⟨s.b, s.a⟩ = 0 := by
  rw [cross_eq] at h ⊢
  linear_combination -h

theorem Holds.ends_of_parallel {p : Point Rat} (hway : way.Holds p) (hs : s.Holds p)
    (hcross : way.cross s = 0) (ha : ¬s.Holds way.a) (hb : ¬s.Holds way.b) :
    way.Holds s.a ∧ way.Holds s.b :=
  ⟨hway.b_of_parallel (reverse_holds_iff.mpr hs) (cross_reverse_eq_zero hcross)
    (fun h => ha (reverse_holds_iff.mp h)) fun h => hb (reverse_holds_iff.mp h),
    hway.b_of_parallel hs hcross ha hb⟩

theorem Holds.above_iff {p : Point Rat} (hp : way.Holds p) (hne : p ≠ way.a) :
    way.a.y < p.y ↔ way.a.y < way.b.y := by
  obtain ⟨u, hu0, -, rfl⟩ := hp
  have hpos : 0 < u := by
    refine hu0.lt_of_ne ?_
    rintro rfl
    exact hne (by simp [point])
  simp only [point]
  rw [lt_add_iff_pos_right, mul_pos_iff_of_pos_left hpos, sub_pos]

theorem not_crossedFrom_of_holds (ha : way.Holds s.a) (hb : way.Holds s.b)
    (hoff : ¬s.Holds way.a) : ¬s.CrossedFrom way.a := by
  rintro ⟨h, -⟩
  have hne {p : Point Rat} (hp : s.Holds p) : p ≠ way.a := fun heq => hoff (heq ▸ hp)
  rw [ha.above_iff (hne s.holds_a), hb.above_iff (hne s.holds_b)] at h
  exact iff_not_self h

/-! ## Ways across a ring -/

theorem not_encloses_of_forall {ring : List (Segment Rat)} {p : Point Rat}
    (h : ∀ s ∈ ring, ¬s.CrossedFrom p) : ¬Encloses ring p := by
  rw [Encloses, List.countP_eq_zero.mpr (by simpa using h)]
  decide

/-- A way that starts on one side of a ring and ends on the other meets a segment of the ring that
is not parallel to it. -/
theorem exists_intersects_of_encloses {start : Point Rat} {rest : List (Point Rat)}
    (hoff : ∀ s ∈ closing start start rest, ¬s.Holds way.a ∧ ¬s.Holds way.b)
    (hsides : ¬(Encloses (closing start start rest) way.a ↔
      Encloses (closing start start rest) way.b)) :
    ∃ s ∈ closing start start rest, way.intersects s = true := by
  by_contra! hnone
  have hends : ∀ s ∈ closing start start rest, ∀ p, way.Holds p → s.Holds p →
      way.Holds s.a ∧ way.Holds s.b := by
    intro s hs p hp hsp
    have hcross : way.cross s = 0 := by
      by_contra hcross
      exact hnone s hs (intersects_iff.mpr ⟨hcross, p, hp, hsp⟩)
    exact hp.ends_of_parallel hsp hcross (hoff s hs).1 (hoff s hs).2
  -- A vertex on the way takes its neighbours with it, so that all of the ring is along the way.
  have hall := ends_iff_of_closing (f := way.Holds) fun s hs =>
    ⟨fun h => (hends s hs _ h s.holds_a).2, fun h => (hends s hs _ h s.holds_b).1⟩
  apply hsides
  by_cases hstart : way.Holds start
  · have halong : ∀ s ∈ closing start start rest, way.Holds s.a ∧ way.Holds s.b := fun s hs =>
      ⟨(hall s hs).1.mpr hstart, (hall s hs).2.mpr hstart⟩
    have hreverse : ∀ s ∈ closing start start rest,
        Holds ⟨way.b, way.a⟩ s.a ∧ Holds ⟨way.b, way.a⟩ s.b := fun s hs =>
      ⟨reverse_holds_iff.mpr (halong s hs).1, reverse_holds_iff.mpr (halong s hs).2⟩
    exact iff_of_false
      (not_encloses_of_forall fun s hs =>
        not_crossedFrom_of_holds (halong s hs).1 (halong s hs).2 (hoff s hs).1)
      (not_encloses_of_forall fun s hs =>
        not_crossedFrom_of_holds (hreverse s hs).1 (hreverse s hs).2 (hoff s hs).2)
  · apply encloses_iff_of_clear
    intro s hs p hp hsp
    exact hstart ((hall s hs).1.mp (hends s hs p hp hsp).1)

end Segment

end Raceway
