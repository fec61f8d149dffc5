import Raceway.Proofs.Geometry.Meeting
import Raceway.Query.Ray
/-!
# The nearest strike

A search over a list of walls reports nothing exactly when the ray meets none of them, and
otherwise a strike on one of them that is nearest over the rationals.  On one ray two strikes at
the same distance are the same strike, so the list decides the report only through the walls in
it, not through their order or number.
-/

namespace Raceway

namespace Strike

section

variable {α : Type} [Coord α]

/-! ## Searching a list -/

theorem on?_eq_some_iff {ray s : Segment α} {k : Strike α} :
    on? ray s = some k ↔
      ray.intersect s = some k.point ∧ k.distanceSquared = ray.a.distanceSquared k.point := by
  obtain ⟨point, distance⟩ := k
  rw [on?, Option.map_eq_some_iff]
  constructor
  · rintro ⟨p, hp, hk⟩
    obtain ⟨rfl, rfl⟩ := Strike.mk.inj hk
    exact ⟨hp, rfl⟩
  · rintro ⟨hp, hdistance⟩
    exact ⟨point, hp, congrArg (Strike.mk point) hdistance.symm⟩

theorem on?_eq_none_iff {ray s : Segment α} : on? ray s = none ↔ ray.intersect s = none := by
  rw [on?, Option.map_eq_none_iff]

theorem nearer_some_eq (first strike : Strike α) :
    nearer (some first) strike =
      if strike.distanceSquared < first.distanceSquared then some strike else some first := rfl

theorem nearer_cases (best : Option (Strike α)) (strike : Strike α) :
    nearer best strike = some strike ∨ nearer best strike = best ∧ best ≠ none := by
  cases best with
  | none => exact Or.inl rfl
  | some first =>
      rw [nearer_some_eq]
      split_ifs with hlt
      · exact Or.inl rfl
      · exact Or.inr ⟨rfl, Option.some_ne_none first⟩

theorem foldl_nearer_eq_none_iff {strikes : List (Strike α)} {best : Option (Strike α)} :
    strikes.foldl nearer best = none ↔ best = none ∧ strikes = [] := by
  induction strikes generalizing best with
  | nil => simp
  | cons strike strikes ih =>
      rw [List.foldl_cons, ih]
      rcases nearer_cases best strike with h | ⟨h, hbest⟩
      · simp [h]
      · simp [h, hbest]

theorem foldl_nearer_mem {strikes : List (Strike α)} {best : Option (Strike α)} {k : Strike α}
    (h : strikes.foldl nearer best = some k) : k ∈ strikes ∨ best = some k := by
  induction strikes generalizing best with
  | nil => exact Or.inr h
  | cons strike strikes ih =>
      rw [List.foldl_cons] at h
      rcases ih h with hmem | hbest
      · exact Or.inl (List.mem_cons_of_mem _ hmem)
      · rcases nearer_cases best strike with hstep | ⟨hstep, -⟩
        · rw [hstep] at hbest
          exact Or.inl (Option.some.inj hbest ▸ List.mem_cons_self)
        · exact Or.inr (hstep ▸ hbest)

theorem mem_strikes {ray : Segment α} {walls : List (Wall α)} {k : Strike α} :
    k ∈ walls.filterMap (fun wall => on? ray wall.segment) ↔
      ∃ wall ∈ walls, on? ray wall.segment = some k :=
  List.mem_filterMap

theorem nearest_eq_none_iff {ray : Segment α} {walls : List (Wall α)} :
    nearest ray walls = none ↔ ∀ wall ∈ walls, ray.intersect wall.segment = none := by
  rw [nearest, foldl_nearer_eq_none_iff, List.filterMap_eq_nil_iff]
  simp only [true_and, on?_eq_none_iff]

theorem exists_of_nearest {ray : Segment α} {walls : List (Wall α)} {k : Strike α}
    (h : nearest ray walls = some k) : ∃ wall ∈ walls, on? ray wall.segment = some k := by
  rcases foldl_nearer_mem h with hmem | hnone
  · exact mem_strikes.mp hmem
  · cases hnone

end

/-! ## The minimum over the rationals -/

theorem nearer_le {best : Option (Strike Rat)} {strike k : Strike Rat}
    (h : nearer best strike = some k) :
    k.distanceSquared ≤ strike.distanceSquared ∧
      ∀ j, best = some j → k.distanceSquared ≤ j.distanceSquared := by
  cases best with
  | none =>
      obtain rfl := Option.some.inj h
      exact ⟨le_rfl, fun j hj => nomatch hj⟩
  | some first =>
      rw [nearer_some_eq] at h
      split_ifs at h with hlt
      · obtain rfl := Option.some.inj h
        exact ⟨le_rfl, fun j hj => Option.some.inj hj ▸ hlt.le⟩
      · obtain rfl := Option.some.inj h
        exact ⟨not_lt.mp hlt, fun j hj => Option.some.inj hj ▸ le_rfl⟩

theorem foldl_nearer_le {strikes : List (Strike Rat)} {best : Option (Strike Rat)}
    {k : Strike Rat} (h : strikes.foldl nearer best = some k) :
    (∀ j ∈ strikes, k.distanceSquared ≤ j.distanceSquared) ∧
      ∀ j, best = some j → k.distanceSquared ≤ j.distanceSquared := by
  induction strikes generalizing best with
  | nil => exact ⟨fun j hj => (List.not_mem_nil hj).elim, fun j hj => by simp_all⟩
  | cons strike strikes ih =>
      obtain ⟨hrest, hbest⟩ := ih h
      obtain ⟨next, hnext⟩ : ∃ next, nearer best strike = some next := by
        rcases nearer_cases best strike with hstep | ⟨hstep, hne⟩
        · exact ⟨strike, hstep⟩
        · exact ⟨_, hstep.trans (Option.some_get (Option.isSome_iff_ne_none.mpr hne)).symm⟩
      obtain ⟨hstrike, hfirst⟩ := nearer_le hnext
      have hk := hbest next hnext
      refine ⟨fun j hj => ?_, fun j hj => hk.trans (hfirst j hj)⟩
      rcases List.mem_cons.mp hj with rfl | hj
      · exact hk.trans hstrike
      · exact hrest j hj

theorem nearest_le {ray : Segment Rat} {walls : List (Wall Rat)} {k : Strike Rat}
    (h : nearest ray walls = some k) {wall : Wall Rat} (hwall : wall ∈ walls) {j : Strike Rat}
    (hj : on? ray wall.segment = some j) : k.distanceSquared ≤ j.distanceSquared :=
  (foldl_nearer_le h).1 j (mem_strikes.mpr ⟨wall, hwall, hj⟩)

end Strike

/-! ## Distances along a ray -/

namespace Segment

theorem distanceSquared_point (ray : Segment Rat) (u : Rat) :
    ray.a.distanceSquared (ray.point u) = u * u * ray.a.distanceSquared ray.b := by
  simp only [Point.distanceSquared, point]
  ring

theorem distanceSquared_pos {ray s : Segment Rat} (hcross : ray.cross s ≠ 0) :
    0 < ray.a.distanceSquared ray.b := by
  have hx : 0 ≤ (ray.b.x - ray.a.x) * (ray.b.x - ray.a.x) := mul_self_nonneg _
  have hy : 0 ≤ (ray.b.y - ray.a.y) * (ray.b.y - ray.a.y) := mul_self_nonneg _
  apply lt_of_le_of_ne (add_nonneg hx hy)
  intro h
  obtain ⟨hx0, hy0⟩ := (add_eq_zero_iff_of_nonneg hx hy).mp h.symm
  apply hcross
  rw [cross_eq, mul_self_eq_zero.mp hx0, mul_self_eq_zero.mp hy0, mul_zero, mul_zero, sub_zero]

end Segment

namespace Strike

theorem exists_param {ray s : Segment Rat} {k : Strike Rat} (hk : on? ray s = some k) :
    0 < ray.a.distanceSquared ray.b ∧
      ∃ u, 0 ≤ u ∧ k.point = ray.point u ∧
        k.distanceSquared = u * u * ray.a.distanceSquared ray.b := by
  obtain ⟨hpoint, hdistance⟩ := on?_eq_some_iff.mp hk
  obtain ⟨hcross, ⟨u, hu0, -, hu⟩, -⟩ := Segment.intersect_eq_some_iff.mp hpoint
  refine ⟨Segment.distanceSquared_pos hcross, u, hu0, hu.symm, ?_⟩
  rw [hdistance, ← hu, Segment.distanceSquared_point]

/-- Strikes of one ray are nearer the smaller their parameters are. -/
theorem exists_params_le {ray s t : Segment Rat} {j k : Strike Rat} (hj : on? ray s = some j)
    (hk : on? ray t = some k) (hle : j.distanceSquared ≤ k.distanceSquared) :
    ∃ u v, 0 ≤ u ∧ u ≤ v ∧ j.point = ray.point u ∧ k.point = ray.point v := by
  obtain ⟨hpos, u, hu0, hju, hjd⟩ := exists_param hj
  obtain ⟨-, v, hv0, hkv, hkd⟩ := exists_param hk
  refine ⟨u, v, hu0, ?_, hju, hkv⟩
  rw [hjd, hkd] at hle
  exact (mul_self_le_mul_self_iff hu0 hv0).mpr (le_of_mul_le_mul_right hle hpos)

/-- Strikes of one ray at the same distance are the same. -/
theorem eq_of_distanceSquared_eq {ray s t : Segment Rat} {j k : Strike Rat}
    (hj : on? ray s = some j) (hk : on? ray t = some k)
    (heq : j.distanceSquared = k.distanceSquared) : j = k := by
  obtain ⟨hpos, u, hu0, hju, hjd⟩ := exists_param hj
  obtain ⟨-, v, hv0, hkv, hkd⟩ := exists_param hk
  have hsq : u * u = v * v := by
    apply mul_right_cancel₀ hpos.ne'
    rw [← hjd, ← hkd, heq]
  have huv : u = v := (mul_self_inj hu0 hv0).mp hsq
  have hpoint : j.point = k.point := by rw [hju, hkv, huv]
  calc j = ⟨j.point, j.distanceSquared⟩ := rfl
    _ = ⟨k.point, k.distanceSquared⟩ := by rw [hpoint, heq]
    _ = k := rfl

end Strike

end Raceway
