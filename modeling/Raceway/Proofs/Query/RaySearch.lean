import Mathlib.Tactic.FieldSimp
import Raceway.Proofs.Grid.Cover
import Raceway.Proofs.Query.Nearest
/-!
# What a ray finds

Over the rationals the search of a ray in the tiles is compared with a scan of all walls.  It
misses only what lies outside the covered area, and it reports the nearest wall unless the strike
that it settles for lies beyond the tile of its origin.
-/

namespace Raceway.Grid

/-! ## The walls that are searched -/

section

variable {α : Type}

theorem localWalls_eq {grid : Grid α} {i : Nat} {tile : Tile α} (h : grid.tiles[i]? = some tile) :
    grid.localWalls (some i) = tile.walls := by
  simp only [localWalls, tileWalls, h]

theorem exists_of_mem_localWalls {grid : Grid α} {place : Option Nat} {wall : Wall α}
    (h : wall ∈ grid.localWalls place) :
    ∃ i tile, place = some i ∧ grid.tiles[i]? = some tile ∧ wall ∈ tile.walls := by
  cases place with
  | none => cases h
  | some i =>
      cases htile : grid.tiles[i]? with
      | none =>
          simp only [localWalls, tileWalls, htile] at h
          cases h
      | some tile =>
          rw [localWalls_eq htile] at h
          exact ⟨i, tile, rfl, htile, h⟩

variable [Coord α]

theorem mem_passedWalls {grid : Grid α} {ray : Segment α} {wall : Wall α} :
    wall ∈ grid.passedWalls ray ↔
      ∃ tile ∈ grid.tiles, wall ∈ tile.walls ∧
        (tile.rect.contains ray.b = true ∨ tile.rect.crossesBoundary ray = true) := by
  rw [passedWalls, List.mem_flatMap]
  constructor
  · rintro ⟨tile, htile, hwall⟩
    split_ifs at hwall with hpass
    · rw [Bool.and_eq_true, Bool.or_eq_true] at hpass
      exact ⟨tile, Array.mem_toList_iff.mp htile, hwall, hpass.2⟩
    · cases hwall
  · rintro ⟨tile, htile, hwall, hpass⟩
    refine ⟨tile, Array.mem_toList_iff.mpr htile, ?_⟩
    have hne : tile.walls.isEmpty = false := by
      rw [List.isEmpty_eq_false_iff]
      exact List.ne_nil_of_mem hwall
    rwa [if_pos]
    rw [hne, Bool.not_false, Bool.true_and, Bool.or_eq_true]
    exact hpass

theorem castRay_result (grid : Grid α) (place : Option Nat) (origin target : Point α) :
    (grid.castRay place origin target).result =
      (Strike.nearest ⟨origin, target⟩ (grid.localWalls place)).or
        (Strike.nearest ⟨origin, target⟩ (grid.passedWalls ⟨origin, target⟩)) := by
  rw [castRay]
  cases Strike.nearest ⟨origin, target⟩ (grid.localWalls place) <;> rfl

theorem castRay_eq_none_iff {grid : Grid α} {place : Option Nat} {origin target : Point α} :
    (grid.castRay place origin target).result = none ↔
      (∀ wall ∈ grid.localWalls place, Segment.intersect ⟨origin, target⟩ wall.segment = none) ∧
      ∀ wall ∈ grid.passedWalls ⟨origin, target⟩,
        Segment.intersect ⟨origin, target⟩ wall.segment = none := by
  rw [castRay_result, Option.or_eq_none_iff, Strike.nearest_eq_none_iff,
    Strike.nearest_eq_none_iff]

theorem exists_of_castRay {grid : Grid α} {place : Option Nat} {origin target : Point α}
    {k : Strike α} (h : (grid.castRay place origin target).result = some k) :
    ∃ tile ∈ grid.tiles, ∃ wall ∈ tile.walls,
      Strike.on? ⟨origin, target⟩ wall.segment = some k := by
  rw [castRay_result, Option.or_eq_some_iff] at h
  rcases h with hnear | ⟨-, hfar⟩
  · obtain ⟨wall, hwall, hk⟩ := Strike.exists_of_nearest hnear
    obtain ⟨i, tile, -, htile, hmem⟩ := exists_of_mem_localWalls hwall
    exact ⟨tile, Array.mem_of_getElem? htile, wall, hmem, hk⟩
  · obtain ⟨wall, hwall, hk⟩ := Strike.exists_of_nearest hfar
    obtain ⟨tile, htile, hmem, -⟩ := mem_passedWalls.mp hwall
    exact ⟨tile, htile, wall, hmem, hk⟩

end

variable {grid : Grid Rat}

/-! ## Covered meeting points -/

theorem Exact.mem_walls_of_holds (hgrid : grid.Exact) {tile : Tile Rat}
    (htile : tile ∈ grid.tiles) {wall : Wall Rat} (hwall : wall ∈ grid.walls) {p : Point Rat}
    (hs : wall.segment.Holds p) (hp : tile.rect.contains p = true) : wall ∈ tile.walls :=
  (hgrid.mem_walls_iff tile htile wall).mpr
    ⟨hwall, Rect.touches_of_holds (hgrid.proper tile htile) hs hp⟩

/-- A wall that a ray meets in a covered point is on the way of the ray. -/
theorem Exact.passes_of_intersect (hgrid : grid.Exact) {ray : Segment Rat} {wall : Wall Rat}
    (hwall : wall ∈ grid.walls) {p : Point Rat} (hp : ray.intersect wall.segment = some p)
    (hcover : grid.Covers p) : wall ∈ grid.passedWalls ray := by
  obtain ⟨tile, htile, hin⟩ := hcover
  obtain ⟨-, hray, hs⟩ := Segment.intersect_eq_some_iff.mp hp
  exact mem_passedWalls.mpr ⟨tile, htile, hgrid.mem_walls_of_holds htile hwall hs hin,
    Rect.passes_of_holds (hgrid.proper tile htile) hray hin⟩

theorem Exact.covers_of_intersect (hgrid : grid.Exact) {ray s : Segment Rat} {p : Point Rat}
    (hs : grid.Covers s.a ∧ grid.Covers s.b) (hp : ray.intersect s = some p) : grid.Covers p :=
  hgrid.convex s p hs.1 hs.2 (Segment.intersect_eq_some_iff.mp hp).2.2

theorem Exact.castRay_ne_none (hgrid : grid.Exact) (place : Option Nat)
    {origin target : Point Rat} {wall : Wall Rat} (hwall : wall ∈ grid.walls) {p : Point Rat}
    (hp : Segment.intersect ⟨origin, target⟩ wall.segment = some p) (hcover : grid.Covers p) :
    (grid.castRay place origin target).result ≠ none := by
  intro hnone
  have hmiss := (castRay_eq_none_iff.mp hnone).2 wall (hgrid.passes_of_intersect hwall hp hcover)
  rw [hp] at hmiss
  cases hmiss

theorem Exact.exists_wall_of_castRay (hgrid : grid.Exact) {place : Option Nat}
    {origin target : Point Rat} {k : Strike Rat}
    (hk : (grid.castRay place origin target).result = some k) :
    ∃ wall ∈ grid.walls, Strike.on? ⟨origin, target⟩ wall.segment = some k := by
  obtain ⟨tile, htile, wall, hwall, hon⟩ := exists_of_castRay hk
  exact ⟨wall, ((hgrid.mem_walls_iff tile htile wall).mp hwall).1, hon⟩

theorem Exact.castRay_eq_none (hgrid : grid.Exact) {place : Option Nat} {origin target : Point Rat}
    (hclear : ∀ wall ∈ grid.walls, Segment.intersect ⟨origin, target⟩ wall.segment = none) :
    (grid.castRay place origin target).result = none := by
  by_contra hstrike
  obtain ⟨k, hk⟩ := Option.ne_none_iff_exists'.mp hstrike
  obtain ⟨wall, hwall, hon⟩ := hgrid.exists_wall_of_castRay hk
  have hmiss := Strike.on?_eq_none_iff.mpr (hclear wall hwall)
  rw [hon] at hmiss
  cases hmiss

/-- The search in tiles agrees with a scan of all walls on whether there is a strike: it finds
one wherever a wall is met in a covered point, and finds nothing but walls. -/
theorem castRay_agrees_with_scan {field : Playfield Rat} (hfield : field.validate = .ok ())
    (segments : List (Segment Rat)) :
    ∃ grid, build field segments = .ok grid ∧ ∀ origin target : Point Rat,
      ((∃ s ∈ segments, ∃ p, Segment.intersect ⟨origin, target⟩ s = some p ∧ grid.Covers p) →
        (grid.castRay (grid.tileOf? origin) origin target).result ≠ none) ∧
      (∀ k, (grid.castRay (grid.tileOf? origin) origin target).result = some k →
        ∃ s ∈ segments, Segment.intersect ⟨origin, target⟩ s = some k.point) ∧
      ((∀ s ∈ segments, grid.Covers s.a ∧ grid.Covers s.b) →
        ((grid.castRay (grid.tileOf? origin) origin target).result = none ↔
          ∀ s ∈ segments, Segment.intersect ⟨origin, target⟩ s = none)) := by
  obtain ⟨grid, hbuild, hwalls, hgrid⟩ := build_exact hfield segments
  refine ⟨grid, hbuild, ?_⟩
  intro origin target
  simp only [Wall.forall_segments, Wall.exists_segments, ← hwalls]
  refine ⟨?_, ?_, ?_⟩
  · rintro ⟨wall, hwall, p, hp, hcover⟩
    exact hgrid.castRay_ne_none _ hwall hp hcover
  · intro k hk
    obtain ⟨wall, hwall, hon⟩ := hgrid.exists_wall_of_castRay hk
    exact ⟨wall, hwall, (Strike.on?_eq_some_iff.mp hon).1⟩
  · intro hinside
    constructor
    · intro hnone wall hwall
      by_contra hmeet
      obtain ⟨p, hp⟩ := Option.ne_none_iff_exists'.mp hmeet
      have hcover := hgrid.covers_of_intersect (hinside wall hwall) hp
      exact hgrid.castRay_ne_none _ hwall hp hcover hnone
    · exact hgrid.castRay_eq_none

/-- A ray along the border of two columns meets a wall that starts and ends outside the grid. -/
theorem castRay_agrees_with_scan_border :
    (⟨0, 0, 20, 20, 10⟩ : Playfield Rat).validate = .ok () ∧
      ∃ grid : Grid Rat, build ⟨0, 0, 20, 20, 10⟩ [⟨⟨-5, 15⟩, ⟨35, 15⟩⟩] = .ok grid ∧
        grid.Covers ⟨10, 15⟩ ∧
        (grid.castRay (grid.tileOf? ⟨10, 5⟩) ⟨10, 5⟩ ⟨10, 25⟩).result ≠ none := by
  have hfield : (⟨0, 0, 20, 20, 10⟩ : Playfield Rat).validate = .ok () :=
    eq_ok_of_toOption (by decide +kernel)
  obtain ⟨grid, hbuild, h⟩ := castRay_agrees_with_scan hfield [⟨⟨-5, 15⟩, ⟨35, 15⟩⟩]
  have hsize : (⟨0, 0, 20, 20, 10⟩ : Playfield Rat).dimensions = .ok ⟨3, 3⟩ :=
    eq_ok_of_toOption (by decide +kernel)
  have hcover : grid.Covers ⟨10, 15⟩ := by
    obtain rfl := Except.ok.inj ((build_eq hsize _).symm.trans hbuild)
    refine (covers_iff ⟨hsize, by decide +kernel, by decide, by decide⟩).mpr ?_
    decide +kernel
  exact ⟨hfield, grid, hbuild, hcover, (h ⟨10, 5⟩ ⟨10, 25⟩).1
    ⟨⟨⟨-5, 15⟩, ⟨35, 15⟩⟩, List.mem_cons_self, ⟨10, 15⟩, by decide +kernel, hcover⟩⟩

/-! ## The nearest wall -/

theorem contains_point_of_le {r : Rect Rat} {ray : Segment Rat} {u v : Rat} (hu0 : 0 ≤ u)
    (huv : u ≤ v) (ha : r.contains ray.a = true) (hv : r.contains (ray.point v) = true) :
    r.contains (ray.point u) = true := by
  rcases hu0.trans huv |>.eq_or_lt with hv0 | hv0
  · have hu : u = v := by linarith
    rwa [hu]
  · have hunit : u / v ≤ 1 := (div_le_one₀ hv0).mpr huv
    have hnonneg : 0 ≤ u / v := div_nonneg hu0 hv0.le
    have hmid : ray.point u = Segment.point ⟨ray.a, ray.point v⟩ (u / v) := by
      simp only [Segment.point, Point.mk.injEq]
      constructor <;> field_simp <;> ring
    exact Rect.contains_of_holds (s := ⟨ray.a, ray.point v⟩) ha hv ⟨_, hnonneg, hunit, hmid.symm⟩

/-- Whether the tile of the origin is enough to decide a ray: the ray meets none of the walls
listed there, or what it reports lies in that tile. -/
def SettledBy (grid : Grid Rat) (origin target : Point Rat) : Prop :=
  (∀ wall ∈ grid.localWalls (grid.tileOf? origin),
      Segment.intersect ⟨origin, target⟩ wall.segment = none) ∨
    ∃ i tile k, grid.tileOf? origin = some i ∧ grid.tiles[i]? = some tile ∧
      (grid.castRay (some i) origin target).result = some k ∧
      tile.rect.contains k.point = true

/-- A strike in the tile of the origin is the nearest of all: a nearer one would lie between two
points of the tile, whose walls have been searched. -/
theorem Exact.le_of_contains (hgrid : grid.Exact) {origin target : Point Rat} {i : Nat}
    {tile : Tile Rat} {k : Strike Rat} (hplace : grid.tileOf? origin = some i)
    (htile : grid.tiles[i]? = some tile)
    (hk : Strike.nearest ⟨origin, target⟩ tile.walls = some k)
    (hin : tile.rect.contains k.point = true) {wall : Wall Rat} (hwall : wall ∈ grid.walls)
    {j : Strike Rat} (hj : Strike.on? ⟨origin, target⟩ wall.segment = some j) :
    k.distanceSquared ≤ j.distanceSquared := by
  -- A nearer strike has a smaller parameter, so it lies in the tile as well.
  by_contra hlt
  obtain ⟨wall', -, hk'⟩ := Strike.exists_of_nearest hk
  obtain ⟨u, v, hu0, huv, hju, hkv⟩ := Strike.exists_params_le hj hk' (not_le.mp hlt).le
  have horigin : tile.rect.contains origin = true := by
    obtain ⟨tile', htile', hcontains⟩ := hgrid.lookup origin i hplace
    rw [htile] at htile'
    rwa [Option.some.inj htile']
  have hjin : tile.rect.contains j.point = true := by
    rw [hkv] at hin
    rw [hju]
    exact contains_point_of_le hu0 huv horigin hin
  have hs := (Segment.intersect_eq_some_iff.mp (Strike.on?_eq_some_iff.mp hj).1).2.2
  have hmem := hgrid.mem_walls_of_holds (Array.mem_of_getElem? htile) hwall hs hjin
  exact hlt (Strike.nearest_le hk hmem hj)

theorem Exact.castRay_le (hgrid : grid.Exact) {origin target : Point Rat}
    (hsettled : grid.SettledBy origin target) {k : Strike Rat}
    (hk : (grid.castRay (grid.tileOf? origin) origin target).result = some k)
    {wall : Wall Rat} (hwall : wall ∈ grid.walls) {j : Strike Rat}
    (hj : Strike.on? ⟨origin, target⟩ wall.segment = some j) (hcover : grid.Covers j.point) :
    k.distanceSquared ≤ j.distanceSquared := by
  have hpassed := hgrid.passes_of_intersect hwall (Strike.on?_eq_some_iff.mp hj).1 hcover
  rcases hsettled with hclear | ⟨i, tile, k', hplace, htile, hk', hin⟩
  · rw [castRay_result, Strike.nearest_eq_none_iff.mpr hclear, Option.none_or] at hk
    exact Strike.nearest_le hk hpassed hj
  · rw [hplace, hk'] at hk
    obtain rfl := Option.some.inj hk
    rw [castRay_result, localWalls_eq htile, Option.or_eq_some_iff] at hk'
    rcases hk' with hnear | ⟨-, hfar⟩
    · exact hgrid.le_of_contains hplace htile hnear hin hwall hj
    · exact Strike.nearest_le hfar hpassed hj

theorem Exact.exists_castRay_le (hgrid : grid.Exact) {origin target : Point Rat}
    (hsettled : grid.SettledBy origin target) {wall : Wall Rat} (hwall : wall ∈ grid.walls)
    {p : Point Rat} (hp : Segment.intersect ⟨origin, target⟩ wall.segment = some p)
    (hcover : grid.Covers p) :
    ∃ k, (grid.castRay (grid.tileOf? origin) origin target).result = some k ∧
      k.distanceSquared ≤ origin.distanceSquared p := by
  have hne := hgrid.castRay_ne_none (grid.tileOf? origin) hwall hp hcover
  obtain ⟨k, hk⟩ := Option.ne_none_iff_exists'.mp hne
  have hj : Strike.on? ⟨origin, target⟩ wall.segment = some ⟨p, origin.distanceSquared p⟩ :=
    Strike.on?_eq_some_iff.mpr ⟨hp, rfl⟩
  exact ⟨k, hk, hgrid.castRay_le hsettled hk hwall hj hcover⟩

/-- Among covered walls a settled ray reports what a scan of all of them does. -/
theorem Exact.castRay_eq_scan (hgrid : grid.Exact) {origin target : Point Rat}
    (hinside : ∀ wall ∈ grid.walls, grid.Covers wall.segment.a ∧ grid.Covers wall.segment.b)
    (hsettled : grid.SettledBy origin target) :
    (grid.castRay (grid.tileOf? origin) origin target).result =
      Strike.nearest ⟨origin, target⟩ grid.walls := by
  cases hscan : Strike.nearest ⟨origin, target⟩ grid.walls with
  | none => exact hgrid.castRay_eq_none (Strike.nearest_eq_none_iff.mp hscan)
  | some j =>
      obtain ⟨wall, hwall, hj⟩ := Strike.exists_of_nearest hscan
      obtain ⟨hmeet, hdistance⟩ := Strike.on?_eq_some_iff.mp hj
      have hcover := hgrid.covers_of_intersect (hinside wall hwall) hmeet
      obtain ⟨k, hk, hle⟩ := hgrid.exists_castRay_le hsettled hwall hmeet hcover
      obtain ⟨wall', hwall', hon⟩ := hgrid.exists_wall_of_castRay hk
      rw [← hdistance] at hle
      have hge := Strike.nearest_le hscan hwall' hon
      rw [hk, Strike.eq_of_distanceSquared_eq hon hj (le_antisymm hle hge)]

/-- A ray that is not settled has its nearest strike on the walls of the origin's tile beyond
that tile. -/
theorem exists_of_not_settledBy {origin target : Point Rat}
    (h : ¬ grid.SettledBy origin target) :
    ∃ i tile k, grid.tileOf? origin = some i ∧ grid.tiles[i]? = some tile ∧
      Strike.nearest ⟨origin, target⟩ tile.walls = some k ∧
      tile.rect.contains k.point = false := by
  rw [SettledBy, not_or] at h
  obtain ⟨hmeet, hbeyond⟩ := h
  push Not at hmeet
  obtain ⟨wall, hwall, hne⟩ := hmeet
  obtain ⟨i, tile, hplace, htile, hmem⟩ := exists_of_mem_localWalls hwall
  cases hk : Strike.nearest ⟨origin, target⟩ tile.walls with
  | none => exact (hne (Strike.nearest_eq_none_iff.mp hk wall hmem)).elim
  | some k =>
      refine ⟨i, tile, k, hplace, htile, hk, ?_⟩
      by_contra hin
      refine hbeyond ⟨i, tile, k, hplace, htile, ?_, by simpa using hin⟩
      rw [castRay_result, localWalls_eq htile, hk, Option.some_or]

/-- Whenever the tile of the origin is enough to decide a ray that meets a wall in a covered point,
there is a report, and it is the nearest of all walls that are met so.  Among walls inside the
grid it is then what a scan of all walls reports, and a ray for which it is not has struck beyond
the tile of its origin. -/
theorem castRay_reports_nearest {field : Playfield Rat} (hfield : field.validate = .ok ())
    (segments : List (Segment Rat)) :
    ∃ grid, build field segments = .ok grid ∧ ∀ origin target : Point Rat,
      (grid.SettledBy origin target → ∀ s ∈ segments, ∀ p,
        Segment.intersect ⟨origin, target⟩ s = some p → grid.Covers p →
        ∃ k, (grid.castRay (grid.tileOf? origin) origin target).result = some k ∧
          k.distanceSquared ≤ origin.distanceSquared p) ∧
      ((∀ s ∈ segments, grid.Covers s.a ∧ grid.Covers s.b) →
        (grid.SettledBy origin target →
          (grid.castRay (grid.tileOf? origin) origin target).result =
            Strike.nearest ⟨origin, target⟩ (Wall.number segments)) ∧
        ((grid.castRay (grid.tileOf? origin) origin target).result ≠
            Strike.nearest ⟨origin, target⟩ (Wall.number segments) →
          ∃ i tile k, grid.tileOf? origin = some i ∧ grid.tiles[i]? = some tile ∧
            Strike.nearest ⟨origin, target⟩ tile.walls = some k ∧
            tile.rect.contains k.point = false)) := by
  obtain ⟨grid, hbuild, hwalls, hgrid⟩ := build_exact hfield segments
  refine ⟨grid, hbuild, ?_⟩
  intro origin target
  simp only [Wall.forall_segments, ← hwalls]
  constructor
  · intro hsettled wall hwall p hp hcover
    exact hgrid.exists_castRay_le hsettled hwall hp hcover
  · intro hinside
    refine ⟨hgrid.castRay_eq_scan hinside, ?_⟩
    intro hne
    apply exists_of_not_settledBy
    intro hsettled
    exact hne (hgrid.castRay_eq_scan hinside hsettled)

/-- A ray that strikes a wall in the tile of its origin before another wall far from there. -/
theorem castRay_reports_nearest_of_two :
    (⟨0, 0, 20, 20, 10⟩ : Playfield Rat).validate = .ok () ∧
      ∃ grid : Grid Rat,
        build ⟨0, 0, 20, 20, 10⟩ [⟨⟨15, 0⟩, ⟨15, 20⟩⟩, ⟨⟨7, 0⟩, ⟨7, 20⟩⟩] = .ok grid ∧
        grid.SettledBy ⟨2, 5⟩ ⟨18, 5⟩ ∧
        grid.Covers ⟨15, 5⟩ ∧
        ∃ k, (grid.castRay (grid.tileOf? ⟨2, 5⟩) ⟨2, 5⟩ ⟨18, 5⟩).result = some k ∧
          k.distanceSquared ≤ Point.distanceSquared ⟨2, 5⟩ ⟨15, 5⟩ := by
  have hfield : (⟨0, 0, 20, 20, 10⟩ : Playfield Rat).validate = .ok () :=
    eq_ok_of_toOption (by decide +kernel)
  obtain ⟨grid, hbuild, h⟩ :=
    castRay_reports_nearest hfield [⟨⟨15, 0⟩, ⟨15, 20⟩⟩, ⟨⟨7, 0⟩, ⟨7, 20⟩⟩]
  have hsize : (⟨0, 0, 20, 20, 10⟩ : Playfield Rat).dimensions = .ok ⟨3, 3⟩ :=
    eq_ok_of_toOption (by decide +kernel)
  have hgrid := Except.ok.inj ((build_eq hsize _).symm.trans hbuild)
  have hcover : grid.Covers ⟨15, 5⟩ := by
    rw [← hgrid, covers_iff ⟨hsize, by decide +kernel, by decide, by decide⟩]
    decide +kernel
  have hplace : grid.tileOf? ⟨2, 5⟩ = some 0 := by
    rw [← hgrid]
    decide +kernel
  have hresult : (grid.castRay (some 0) ⟨2, 5⟩ ⟨18, 5⟩).result = some ⟨⟨7, 5⟩, 25⟩ := by
    rw [← hgrid]
    decide +kernel
  have hsettled : grid.SettledBy ⟨2, 5⟩ ⟨18, 5⟩ := by
    have hin : grid.tiles[0]?.any (fun tile => tile.rect.contains ⟨7, 5⟩) = true := by
      rw [← hgrid]
      decide +kernel
    obtain ⟨tile, htile, hcontains⟩ := (Option.any_eq_true _ _).mp hin
    exact Or.inr ⟨0, tile, _, hplace, htile, hresult, hcontains⟩
  exact ⟨hfield, grid, hbuild, hsettled, hcover,
    (h ⟨2, 5⟩ ⟨18, 5⟩).1 hsettled ⟨⟨15, 0⟩, ⟨15, 20⟩⟩ List.mem_cons_self ⟨15, 5⟩
      (by decide +kernel) hcover⟩

end Raceway.Grid
