import Raceway.Proofs.Geometry.FiniteMeeting
import Raceway.Proofs.Query.RaySearch
/-!
# The nearest strike of doubles

A search keeps a strike until one comes that is strictly nearer.  Over doubles such a minimum would
stay where it is at a distance that is no number; but wherever a ray meets a wall the squared
distance is a number.  So a ray reports the first of the nearest walls among those that it searches,
whatever the coordinates are.
-/

namespace Raceway

namespace Strike

/-! ## The first of the nearest strikes -/

/-- The first of the nearest strikes of a list: all before it are farther, and none after it is
nearer. -/
def FirstNearest (strikes : List (Strike Float)) (k : Strike Float) : Prop :=
  ∃ before after, strikes = before ++ k :: after ∧
    (∀ j ∈ before, k.distanceSquared < j.distanceSquared) ∧
    ∀ j ∈ after, k.distanceSquared ≤ j.distanceSquared

namespace FirstNearest

variable {strikes : List (Strike Float)} {first strike k : Strike Float}

theorem singleton (k : Strike Float) : FirstNearest [k] k :=
  ⟨[], [], rfl, by simp, by simp⟩

theorem cons_of_lt (h : FirstNearest (strike :: strikes) k)
    (hlt : strike.distanceSquared < first.distanceSquared) :
    FirstNearest (first :: strike :: strikes) k := by
  obtain ⟨before, after, hsplit, hbefore, hafter⟩ := h
  refine ⟨first :: before, after, by rw [hsplit, List.cons_append], ?_, hafter⟩
  intro j hj
  rcases List.mem_cons.mp hj with rfl | hj
  · cases before with
    | nil =>
        obtain ⟨rfl, -⟩ := List.cons.inj hsplit
        exact hlt
    | cons b before =>
        obtain ⟨rfl, -⟩ := List.cons.inj hsplit
        exact Double.lt_trans (hbefore strike List.mem_cons_self) hlt
  · exact hbefore j hj

theorem insert_of_le (h : FirstNearest (first :: strikes) k)
    (hle : first.distanceSquared ≤ strike.distanceSquared) :
    FirstNearest (first :: strike :: strikes) k := by
  obtain ⟨before, after, hsplit, hbefore, hafter⟩ := h
  cases before with
  | nil =>
      obtain ⟨rfl, rfl⟩ := List.cons.inj hsplit
      refine ⟨[], strike :: strikes, rfl, by simp, ?_⟩
      simpa using ⟨hle, hafter⟩
  | cons b before =>
      obtain ⟨rfl, rfl⟩ := List.cons.inj hsplit
      have hfirst := hbefore first List.mem_cons_self
      refine ⟨first :: strike :: before, after, rfl, ?_, hafter⟩
      intro j hj
      rcases List.mem_cons.mp hj with rfl | hj
      · exact hfirst
      rcases List.mem_cons.mp hj with rfl | hj
      · exact Double.lt_of_lt_of_le hfirst hle
      · exact hbefore j (List.mem_cons_of_mem _ hj)

end FirstNearest

/-- Among strikes at distances that are numbers the search ends with the first of the nearest. -/
theorem exists_foldl_nearer {strikes : List (Strike Float)} {first : Strike Float}
    (hnumber : ∀ j ∈ first :: strikes, j.distanceSquared.isNaN = false) :
    ∃ k, strikes.foldl nearer (some first) = some k ∧ FirstNearest (first :: strikes) k := by
  -- The best strike so far stands in front of those that are still to be compared.
  induction strikes generalizing first with
  | nil => exact ⟨first, rfl, .singleton first⟩
  | cons strike strikes ih =>
      rw [List.forall_mem_cons, List.forall_mem_cons] at hnumber
      obtain ⟨hfirst, hstrike, hstrikes⟩ := hnumber
      rw [List.foldl_cons, nearer_some_eq]
      split_ifs with hlt
      · obtain ⟨k, hk, hnearest⟩ := ih (List.forall_mem_cons.mpr ⟨hstrike, hstrikes⟩)
        exact ⟨k, hk, hnearest.cons_of_lt hlt⟩
      · obtain ⟨k, hk, hnearest⟩ := ih (List.forall_mem_cons.mpr ⟨hfirst, hstrikes⟩)
        exact ⟨k, hk, hnearest.insert_of_le (Double.le_of_not_lt hfirst hstrike hlt)⟩

/-! ## The first of the nearest walls -/

variable {ray s : Segment Float} {walls : List (Wall Float)} {k : Strike Float}

theorem distanceSquared_isNaN (hk : on? ray s = some k) : k.distanceSquared.isNaN = false := by
  obtain ⟨hmeet, hdistance⟩ := on?_eq_some_iff.mp hk
  rw [hdistance]
  exact (Double.nonneg_iff.mp (Segment.distanceSquared_of_intersect hmeet)).1

theorem firstNearest_of_nearest (h : nearest ray walls = some k) :
    FirstNearest (walls.filterMap fun wall => on? ray wall.segment) k := by
  rw [nearest] at h
  have hnumber : ∀ j ∈ walls.filterMap (fun wall => on? ray wall.segment),
      j.distanceSquared.isNaN = false := by
    intro j hj
    obtain ⟨wall, -, hon⟩ := mem_strikes.mp hj
    exact distanceSquared_isNaN hon
  cases hstrikes : walls.filterMap (fun wall => on? ray wall.segment) with
  | nil =>
      rw [hstrikes] at h
      cases h
  | cons first strikes =>
      rw [hstrikes] at h hnumber
      obtain ⟨k', hk', hnearest⟩ := exists_foldl_nearer hnumber
      obtain rfl : k' = k := Option.some.inj (hk'.symm.trans h)
      exact hnearest

/-- The wall that a search reports: of the walls that the ray meets, those before it are farther
and none is nearer. -/
theorem exists_first_of_nearest (h : nearest ray walls = some k) :
    ∃ before wall after, walls = before ++ wall :: after ∧ on? ray wall.segment = some k ∧
      (∀ other ∈ walls, ∀ q, ray.intersect other.segment = some q →
        k.distanceSquared ≤ ray.a.distanceSquared q) ∧
      ∀ other ∈ before, ∀ q, ray.intersect other.segment = some q →
        k.distanceSquared < ray.a.distanceSquared q := by
  obtain ⟨strikesBefore, strikesAfter, hsplit, hbefore, hafter⟩ := firstNearest_of_nearest h
  obtain ⟨front, rest, rfl, hfront, hrest⟩ := List.filterMap_eq_append_iff.mp hsplit
  obtain ⟨missed, wall, after, rfl, hmissed, hon, hwallsAfter⟩ :=
    List.filterMap_eq_cons_iff.mp hrest
  obtain ⟨hmeet, hdistance⟩ := on?_eq_some_iff.mp hon
  have hstrike {other : Wall Float} {q : Point Float}
      (hq : ray.intersect other.segment = some q) :
      on? ray other.segment = some ⟨q, ray.a.distanceSquared q⟩ :=
    on?_eq_some_iff.mpr ⟨hq, rfl⟩
  -- The ray meets a wall in front with an earlier strike, or not at all.
  have hlt : ∀ other ∈ front ++ missed, ∀ q, ray.intersect other.segment = some q →
      k.distanceSquared < ray.a.distanceSquared q := by
    intro other hother q hq
    rcases List.mem_append.mp hother with hother | hother
    · apply hbefore ⟨q, ray.a.distanceSquared q⟩
      rw [← hfront]
      exact mem_strikes.mpr ⟨other, hother, hstrike hq⟩
    · have hnone := hmissed other hother
      rw [hstrike hq] at hnone
      cases hnone
  refine ⟨front ++ missed, wall, after, by rw [List.append_assoc], hon, ?_, hlt⟩
  intro other hother q hq
  rw [← List.append_assoc, List.mem_append, List.mem_cons] at hother
  rcases hother with hother | rfl | hother
  · exact Double.le_of_lt (hlt other hother q hq)
  · obtain rfl : k.point = q := Option.some.inj (hmeet.symm.trans hq)
    rw [hdistance]
    exact Double.le_refl (hdistance ▸ distanceSquared_isNaN hon)
  · apply hafter ⟨q, ray.a.distanceSquared q⟩
    rw [← hwallsAfter]
    exact mem_strikes.mpr ⟨other, hother, hstrike hq⟩

end Strike

namespace Grid

/-! ## The walls that a ray searches -/

section

variable {α : Type} [Coord α]

/-- The walls that decide a ray: those of the tile at its start if it meets one of them, otherwise
those of all tiles that it ends in or whose border it crosses, tile by tile. -/
def searchedWalls (grid : Grid α) (place : Option Nat) (ray : Segment α) : List (Wall α) :=
  if (grid.localWalls place).any fun wall => ray.intersects wall.segment then
    grid.localWalls place
  else
    (grid.tiles.toList.filter fun tile =>
      tile.rect.contains ray.b || tile.rect.crossesBoundary ray).flatMap Tile.walls

theorem passedWalls_eq (grid : Grid α) (ray : Segment α) :
    grid.passedWalls ray =
      (grid.tiles.toList.filter fun tile =>
        tile.rect.contains ray.b || tile.rect.crossesBoundary ray).flatMap Tile.walls := by
  rw [passedWalls]
  induction grid.tiles.toList with
  | nil => rfl
  | cons tile tiles ih =>
      rw [List.flatMap_cons, List.filter_cons, ih]
      cases hpass : tile.rect.contains ray.b || tile.rect.crossesBoundary ray with
      | false => simp
      | true => cases hwalls : tile.walls <;> simp [hwalls]

theorem castRay_searchedWalls (grid : Grid α) (place : Option Nat) (origin target : Point α) :
    (grid.castRay place origin target).result =
      Strike.nearest ⟨origin, target⟩ (grid.searchedWalls place ⟨origin, target⟩) := by
  rw [castRay_result, searchedWalls, ← passedWalls_eq]
  split_ifs with hmeet
  · obtain ⟨wall, hwall, hwallMeet⟩ := List.any_eq_true.mp hmeet
    have hne : Strike.nearest ⟨origin, target⟩ (grid.localWalls place) ≠ none := by
      intro hnone
      rw [Segment.intersects, Strike.nearest_eq_none_iff.mp hnone wall hwall] at hwallMeet
      cases hwallMeet
    obtain ⟨k, hk⟩ := Option.ne_none_iff_exists'.mp hne
    rw [hk, Option.some_or]
  · have hnone : Strike.nearest ⟨origin, target⟩ (grid.localWalls place) = none := by
      rw [Strike.nearest_eq_none_iff]
      intro wall hwall
      by_contra hne
      exact hmeet (List.any_eq_true.mpr ⟨wall, hwall, Option.isSome_iff_ne_none.mpr hne⟩)
    rw [hnone, Option.none_or]

end

/-- What a ray of doubles reports in any grid, from any place and for any coordinates.  It misses
if it meets none of the walls that it searches.  Otherwise it reports the first of those walls that
are nearest, with the root of the squared distance to the point where it meets that wall.  No
squared distance to a meeting point is ever NaN. -/
theorem probe_reports_first_nearest (grid : Grid Float) (place : Option Nat)
    (origin target : Point Float) :
    let ray : Segment Float := ⟨origin, target⟩
    let walls := grid.searchedWalls place ray
    ((∀ wall ∈ walls, ray.intersect wall.segment = none) →
        (grid.probe place origin target).result = RayHit.miss) ∧
      ((∃ wall ∈ walls, ray.intersect wall.segment ≠ none) →
        ∃ before wall after p, walls = before ++ wall :: after ∧
          ray.intersect wall.segment = some p ∧
          (grid.probe place origin target).result = ⟨p, (origin.distanceSquared p).sqrt⟩ ∧
          (∀ other ∈ walls, ∀ q, ray.intersect other.segment = some q →
            origin.distanceSquared p ≤ origin.distanceSquared q) ∧
          ∀ other ∈ before, ∀ q, ray.intersect other.segment = some q →
            origin.distanceSquared p < origin.distanceSquared q) ∧
      ∀ (s : Segment Float) (p : Point Float), ray.intersect s = some p →
        (origin.distanceSquared p).isNaN = false := by
  intro ray walls
  have hprobe : (grid.probe place origin target).result =
      RayHit.ofStrike? (Strike.nearest ray walls) :=
    congrArg RayHit.ofStrike? (grid.castRay_searchedWalls place origin target)
  refine ⟨fun hnone => ?_, fun ⟨met, hmet, hne⟩ => ?_, fun s p hp => ?_⟩
  · rw [hprobe, Strike.nearest_eq_none_iff.mpr hnone]
    rfl
  · obtain ⟨k, hk⟩ := Option.ne_none_iff_exists'.mp fun hnone =>
      hne (Strike.nearest_eq_none_iff.mp hnone met hmet)
    obtain ⟨before, wall, after, hwalls, hon, hle, hlt⟩ := Strike.exists_first_of_nearest hk
    obtain ⟨hmeet, hdistance⟩ := Strike.on?_eq_some_iff.mp hon
    rw [hdistance] at hle hlt
    refine ⟨before, wall, after, k.point, hwalls, hmeet, ?_, hle, hlt⟩
    rw [hprobe, hk, ← hdistance]
    rfl
  · exact (Double.nonneg_iff.mp (Segment.distanceSquared_of_intersect hp)).1

end Grid

end Raceway
