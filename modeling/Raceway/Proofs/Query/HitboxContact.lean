import Raceway.Proofs.Query.RaySearch
import Raceway.Query.Contact
/-!
# What a hitbox touches

Over the rationals the test of a hitbox in one tile is compared with a test against all walls.  It
finds nothing but walls, and it misses none of them as long as the corners of the hitbox stay in
the tile.
-/

namespace Raceway

namespace Hitbox

theorem crosses_iff {α : Type} [Coord α] {box : Hitbox α} {s : Segment α} :
    box.crosses s = true ↔ ∃ edge ∈ box.edges, edge.intersects s = true := by
  rw [crosses, List.any_eq_true]

theorem ends_of_mem_edges {α : Type} {box : Hitbox α} {edge : Segment α}
    (h : edge ∈ box.edges) : edge.a ∈ box.corners ∧ edge.b ∈ box.corners := by
  simp only [edges, List.mem_cons, List.not_mem_nil, or_false] at h
  rcases h with rfl | rfl | rfl | rfl <;> simp [corners]

theorem contains_of_holds {r : Rect Rat} {box : Hitbox Rat}
    (hcorners : ∀ corner ∈ box.corners, r.contains corner = true) {edge : Segment Rat}
    (hedge : edge ∈ box.edges) {p : Point Rat} (hp : edge.Holds p) : r.contains p = true := by
  obtain ⟨ha, hb⟩ := ends_of_mem_edges hedge
  exact Rect.contains_of_holds (hcorners _ ha) (hcorners _ hb) hp

end Hitbox

namespace Grid

theorem contact_iff {α : Type} [Coord α] {grid : Grid α} {place : Option Nat}
    {box : Hitbox α} : (grid.contact place box).result = true ↔
      ∃ wall ∈ grid.localWalls place, ∃ edge ∈ box.edges, edge.intersects wall.segment = true := by
  simp only [contact, touchesAny, List.any_eq_true, Hitbox.crosses_iff]

variable {grid : Grid Rat}

theorem Exact.mem_walls_of_intersects (hgrid : grid.Exact) {tile : Tile Rat}
    (htile : tile ∈ grid.tiles) {box : Hitbox Rat}
    (hcorners : ∀ corner ∈ box.corners, tile.rect.contains corner = true) {wall : Wall Rat}
    (hwall : wall ∈ grid.walls) {edge : Segment Rat} (hedge : edge ∈ box.edges)
    (hmeet : edge.intersects wall.segment = true) : wall ∈ tile.walls := by
  obtain ⟨-, p, hp, hs⟩ := Segment.intersects_iff.mp hmeet
  exact hgrid.mem_walls_of_holds htile hwall hs (Hitbox.contains_of_holds hcorners hedge hp)

theorem Exact.exists_wall_of_contact (hgrid : grid.Exact) {place : Option Nat}
    {box : Hitbox Rat} (h : (grid.contact place box).result = true) :
    ∃ wall ∈ grid.walls, ∃ edge ∈ box.edges, edge.intersects wall.segment = true := by
  obtain ⟨wall, hwall, hmeet⟩ := contact_iff.mp h
  obtain ⟨i, tile, -, htile, hmem⟩ := exists_of_mem_localWalls hwall
  exact ⟨wall, ((hgrid.mem_walls_iff tile (Array.mem_of_getElem? htile) wall).mp hmem).1, hmeet⟩

theorem Exact.contact_of_intersects (hgrid : grid.Exact) {i : Nat} {tile : Tile Rat}
    (htile : grid.tiles[i]? = some tile) {box : Hitbox Rat}
    (hcorners : ∀ corner ∈ box.corners, tile.rect.contains corner = true) {wall : Wall Rat}
    (hwall : wall ∈ grid.walls) {edge : Segment Rat} (hedge : edge ∈ box.edges)
    (hmeet : edge.intersects wall.segment = true) :
    (grid.contact (some i) box).result = true := by
  have hmem := hgrid.mem_walls_of_intersects (Array.mem_of_getElem? htile) hcorners hwall hedge
    hmeet
  rw [contact_iff, localWalls_eq htile]
  exact ⟨wall, hmem, edge, hedge, hmeet⟩

/-- The test of a hitbox in the tile of its racer agrees with a test against all walls.  Whatever
it finds is a wall that a side of the hitbox meets; and a hitbox with all corners in that tile
touches a wall there exactly when one of its sides meets any wall at all. -/
theorem contact_agrees_with_scan {field : Playfield Rat} (hfield : field.validate = .ok ())
    (segments : List (Segment Rat)) :
    ∃ grid, build field segments = .ok grid ∧ ∀ (position : Point Rat) (box : Hitbox Rat),
      ((grid.contact (grid.tileOf? position) box).result = true →
        ∃ s ∈ segments, ∃ edge ∈ box.edges, edge.intersects s = true) ∧
      ∀ i, grid.tileOf? position = some i → ∃ tile, grid.tiles[i]? = some tile ∧
        ((∀ corner ∈ box.corners, tile.rect.contains corner = true) →
          ((grid.contact (grid.tileOf? position) box).result = true ↔
            ∃ s ∈ segments, ∃ edge ∈ box.edges, edge.intersects s = true)) := by
  obtain ⟨grid, hbuild, hwalls, hgrid⟩ := build_exact hfield segments
  refine ⟨grid, hbuild, fun position box => ?_⟩
  simp only [@Wall.exists_segments _ segments, ← hwalls]
  refine ⟨hgrid.exists_wall_of_contact, fun i hplace => ?_⟩
  obtain ⟨tile, htile, -⟩ := hgrid.lookup position i hplace
  refine ⟨tile, htile, fun hcorners => ?_⟩
  rw [hplace]
  constructor
  · exact hgrid.exists_wall_of_contact
  · rintro ⟨wall, hwall, edge, hedge, hmeet⟩
    exact hgrid.contact_of_intersects htile hcorners hwall hedge hmeet

/-- A wall that clips a corner of a tile, and a hitbox that starts from that corner. -/
theorem contact_agrees_with_scan_corner :
    (⟨0, 0, 20, 20, 10⟩ : Playfield Rat).validate = .ok () ∧
      ∃ (grid : Grid Rat) (tile : Tile Rat),
        build ⟨0, 0, 20, 20, 10⟩ [⟨⟨9, 12⟩, ⟨12, 9⟩⟩] = .ok grid ∧
        grid.tileOf? ⟨12, 12⟩ = some 4 ∧ grid.tiles[4]? = some tile ∧
        (∀ corner ∈ (⟨⟨10, 10⟩, ⟨13, 11⟩, ⟨12, 14⟩, ⟨11, 13⟩⟩ : Hitbox Rat).corners,
          tile.rect.contains corner = true) ∧
        (grid.contact (grid.tileOf? ⟨12, 12⟩) ⟨⟨10, 10⟩, ⟨13, 11⟩, ⟨12, 14⟩, ⟨11, 13⟩⟩).result =
          true := by
  have hfield : (⟨0, 0, 20, 20, 10⟩ : Playfield Rat).validate = .ok () :=
    eq_ok_of_toOption (by decide +kernel)
  obtain ⟨grid, hbuild, h⟩ := contact_agrees_with_scan hfield [⟨⟨9, 12⟩, ⟨12, 9⟩⟩]
  have hsize : (⟨0, 0, 20, 20, 10⟩ : Playfield Rat).dimensions = .ok ⟨3, 3⟩ :=
    eq_ok_of_toOption (by decide +kernel)
  have hgrid := Except.ok.inj ((build_eq hsize _).symm.trans hbuild)
  have hplace : grid.tileOf? ⟨12, 12⟩ = some 4 := by
    rw [← hgrid]
    decide +kernel
  obtain ⟨tile, htile, hcontact⟩ :=
    (h ⟨12, 12⟩ ⟨⟨10, 10⟩, ⟨13, 11⟩, ⟨12, 14⟩, ⟨11, 13⟩⟩).2 4 hplace
  have hin : grid.tiles[4]?.all (fun tile =>
      (⟨⟨10, 10⟩, ⟨13, 11⟩, ⟨12, 14⟩, ⟨11, 13⟩⟩ : Hitbox Rat).corners.all tile.rect.contains) =
        true := by
    rw [← hgrid]
    decide +kernel
  rw [htile, Option.all_some, List.all_eq_true] at hin
  refine ⟨hfield, grid, tile, hbuild, hplace, htile, hin, (hcontact hin).mpr ?_⟩
  exact ⟨_, List.mem_cons_self, ⟨⟨10, 10⟩, ⟨13, 11⟩⟩, List.mem_cons_self, by decide +kernel⟩

end Grid

end Raceway
