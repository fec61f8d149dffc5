import Mathlib.Data.Rat.Floor
import Raceway.Proofs.Geometry.Clipping
import Raceway.Proofs.Grid.Tiling
/-!
# The area that a grid covers

Over the rationals the tiles of a grid fit together without gaps.  They cover one rectangle, so a
wall between covered points is covered, and the tile that a point is looked up in contains it.
-/

namespace Raceway

theorem eq_ok_of_toOption {ε β : Type} {x : Except ε β} {b : β} (h : x.toOption = some b) :
    x = .ok b := by
  cases x with
  | error e => cases h
  | ok c => exact congrArg _ (Option.some.inj h)

namespace Coord

/-! ## Words of rationals -/

theorem rat_toWord_floor {x : Rat} {n : Nat} (hn : n < 2 ^ 32) (hx : x.floor = n) :
    (toWord (floor x)).toNat = n := by
  have h : toWord (floor x) = UInt32.ofNatClamp (x.floor : Rat).floor.toNat := rfl
  rw [h, Rat.floor_intCast, hx, Int.toNat_natCast, UInt32.ofNatClamp, dif_pos (by exact hn)]
  rfl

theorem rat_toWord_pos {x : Rat} (hx : 1 ≤ x) : 0 < (toWord x).toNat := by
  have h : toWord x = UInt32.ofNatClamp x.floor.toNat := rfl
  have hfloor : 1 ≤ x.floor := Rat.le_floor_iff.mpr (by exact_mod_cast hx)
  rw [h, UInt32.ofNatClamp]
  split_ifs with hlt
  · rw [UInt32.toNat_ofNatLT]
    omega
  · decide

end Coord

namespace Playfield

/-! ## Accepted playfields -/

theorem of_validate {field : Playfield Rat} (h : field.validate = .ok ()) :
    0 < field.cellSize ∧ 0 ≤ field.width ∧ 0 ≤ field.height ∧
      ∃ size, field.dimensions = .ok size := by
  unfold validate at h
  split_ifs at h with hcell hbox
  have hsize : ∃ size, field.dimensions = .ok size := by
    cases hd : field.dimensions with
    | error e => rw [hd] at h; cases h
    | ok size => exact ⟨size, rfl⟩
  have hpos : 0 < field.cellSize := by
    simpa [Coord.isFinite] using hcell
  simp [Coord.isFinite] at hbox
  exact ⟨hpos, hbox.1, hbox.2, hsize⟩

/-- A playfield that is cut into at least one column and one row of proper cells. -/
structure Fits (field : Playfield Rat) (size : Dimensions) : Prop where
  dimensions_eq : field.dimensions = .ok size
  cell_pos : 0 < field.cellSize
  columns_pos : 0 < size.columns.toNat
  rows_pos : 0 < size.rows.toNat

theorem exists_fits {field : Playfield Rat} (h : field.validate = .ok ()) :
    ∃ size, field.Fits size := by
  obtain ⟨hcell, hwidth, hheight, size, hsize⟩ := of_validate h
  have hcount : ∀ extent : Rat, 0 ≤ extent →
      0 < (Coord.toWord (Coord.floor (extent / field.cellSize) + 1)).toNat := by
    intro extent hextent
    apply Coord.rat_toWord_pos
    have hquot : 0 ≤ extent / field.cellSize := div_nonneg hextent hcell.le
    have hfloor : 0 ≤ (extent / field.cellSize).floor :=
      Rat.le_floor_iff.mpr (by exact_mod_cast hquot)
    have hcast : (0 : Rat) ≤ ((extent / field.cellSize).floor : Rat) := by exact_mod_cast hfloor
    exact le_add_of_nonneg_left hcast
  have hpos : 0 < size.columns.toNat ∧ 0 < size.rows.toNat := by
    have h := hsize
    simp only [dimensions] at h
    split_ifs at h
    obtain rfl := Except.ok.inj h
    exact ⟨hcount _ hwidth, hcount _ hheight⟩
  exact ⟨size, hsize, hcell, hpos.1, hpos.2⟩

end Playfield

/-! ## Cells along one axis -/

theorem exists_cell_of_le {L x : Rat} (h0 : 0 ≤ x) {n : Nat} (hn : 0 < n) (hx : x ≤ n * L) :
    ∃ k < n, k * L ≤ x ∧ x ≤ k * L + L := by
  induction n with
  | zero => omega
  | succ n ih =>
      by_cases hlast : (n : Rat) * L ≤ x
      · refine ⟨n, Nat.lt_succ_self n, hlast, ?_⟩
        push_cast at hx
        linarith
      · have hpos : 0 < n := by
          apply Nat.pos_of_ne_zero
          rintro rfl
          simp at hlast
          linarith
        obtain ⟨k, hk, hlo, hhi⟩ := ih hpos (not_le.mp hlast).le
        exact ⟨k, hk.trans (Nat.lt_succ_self n), hlo, hhi⟩

theorem cell_le {L : Rat} (hL : 0 ≤ L) {k n : Nat} (hk : k < n) : (k : Rat) * L + L ≤ n * L := by
  have hcast : (k : Rat) + 1 ≤ n := by exact_mod_cast hk
  calc (k : Rat) * L + L = (k + 1) * L := by ring
    _ ≤ n * L := mul_le_mul_of_nonneg_right hcast hL

/-- The cell that a coordinate is looked up in contains it. -/
theorem floor_cell {L x : Rat} (hL : 0 < L) {k : Nat} (hk : (x / L).floor = k) :
    k * L ≤ x ∧ x ≤ k * L + L := by
  have hlo : ((x / L).floor : Rat) ≤ x / L := Rat.floor_le _
  have hhi : x / L < (((x / L).floor + 1 : Int) : Rat) := Rat.lt_floor_add_one _
  rw [hk] at hlo hhi
  push_cast at hlo hhi
  rw [le_div_iff₀ hL] at hlo
  rw [div_lt_iff₀ hL] at hhi
  constructor <;> linarith

theorem toWord_cell {L x : Rat} {n : UInt32} (hL : 0 < L) (h0 : ¬ Coord.floor (x / L) < 0)
    (hn : ¬ Coord.ofWord n ≤ Coord.floor (x / L)) :
    Coord.toWord (Coord.floor (x / L)) < n ∧
      (Coord.toWord (Coord.floor (x / L))).toNat * L ≤ x ∧
      x ≤ (Coord.toWord (Coord.floor (x / L))).toNat * L + L := by
  have hfloor : Coord.floor (x / L) = ((x / L).floor : Rat) := rfl
  have hword : Coord.ofWord n = ((n.toNat : Int) : Rat) := rfl
  have h0' : 0 ≤ (x / L).floor := by
    rw [hfloor, not_lt] at h0
    exact_mod_cast h0
  have hn' : (x / L).floor < n.toNat := by
    rw [hfloor, hword, not_le] at hn
    exact_mod_cast hn
  obtain ⟨k, hk⟩ := Int.eq_ofNat_of_zero_le h0'
  have hkn : k < n.toNat := by omega
  have hnat : (Coord.toWord (Coord.floor (x / L))).toNat = k :=
    Coord.rat_toWord_floor (Nat.lt_trans hkn n.toNat_lt) hk
  rw [UInt32.lt_iff_toNat_lt, hnat]
  exact ⟨hkn, floor_cell hL hk⟩

namespace Tile

theorem square_contains_iff {field : Playfield Rat} {cell : Cell} {p : Point Rat} :
    (square field cell).contains p = true ↔
      (cell.column.toNat * field.cellSize ≤ p.x - field.originX ∧
        p.x - field.originX ≤ cell.column.toNat * field.cellSize + field.cellSize) ∧
      cell.row.toNat * field.cellSize ≤ p.y - field.originY ∧
        p.y - field.originY ≤ cell.row.toNat * field.cellSize + field.cellSize := by
  have hword : ∀ w : UInt32, Coord.ofWord w = (w.toNat : Rat) := fun _ => rfl
  simp only [Rect.contains_iff, square, Rect.ofCorner, hword]
  constructor
  · rintro ⟨⟨hx0, hx1⟩, hy0, hy1⟩
    refine ⟨⟨?_, ?_⟩, ?_, ?_⟩ <;> linarith
  · rintro ⟨⟨hx0, hx1⟩, hy0, hy1⟩
    refine ⟨⟨?_, ?_⟩, ?_, ?_⟩ <;> linarith

theorem square_proper {field : Playfield Rat} (hcell : 0 < field.cellSize) (cell : Cell) :
    (square field cell).Proper :=
  ⟨lt_add_of_pos_right _ hcell, lt_add_of_pos_right _ hcell⟩

end Tile

namespace Grid

/-! ## Covered points -/

/-- Whether a point lies in a tile of the grid, borders included. -/
def Covers {α : Type} [Coord α] (grid : Grid α) (p : Point α) : Prop :=
  ∃ tile ∈ grid.tiles, tile.rect.contains p = true

variable {field : Playfield Rat} {size : Dimensions} {segments : List (Segment Rat)}

theorem covers_iff (hfits : field.Fits size) {p : Point Rat} :
    (ofDimensions field size segments).Covers p ↔
      (0 ≤ p.x - field.originX ∧ p.x - field.originX ≤ size.columns.toNat * field.cellSize) ∧
      0 ≤ p.y - field.originY ∧ p.y - field.originY ≤ size.rows.toNat * field.cellSize := by
  constructor
  · rintro ⟨tile, htile, hp⟩
    obtain ⟨cell, hcolumn, hrow, rfl⟩ := (mem_ofDimensions field size segments).mp htile
    obtain ⟨⟨hx0, hx1⟩, hy0, hy1⟩ := Tile.square_contains_iff.mp hp
    have hcell := hfits.cell_pos
    have hx := cell_le hcell.le (UInt32.lt_iff_toNat_lt.mp hcolumn)
    have hy := cell_le hcell.le (UInt32.lt_iff_toNat_lt.mp hrow)
    have hposx : (0 : Rat) ≤ cell.column.toNat * field.cellSize := by positivity
    have hposy : (0 : Rat) ≤ cell.row.toNat * field.cellSize := by positivity
    exact ⟨⟨hposx.trans hx0, hx1.trans hx⟩, hposy.trans hy0, hy1.trans hy⟩
  · rintro ⟨⟨hx0, hx1⟩, hy0, hy1⟩
    obtain ⟨column, hcolumn, hx⟩ := exists_cell_of_le hx0 hfits.columns_pos hx1
    obtain ⟨row, hrow, hy⟩ := exists_cell_of_le hy0 hfits.rows_pos hy1
    have hc : (UInt32.ofNat column).toNat = column :=
      UInt32.toNat_ofNat_of_lt' (Nat.lt_trans hcolumn size.columns.toNat_lt)
    have hr : (UInt32.ofNat row).toNat = row :=
      UInt32.toNat_ofNat_of_lt' (Nat.lt_trans hrow size.rows.toNat_lt)
    refine ⟨Tile.ofCell field (Wall.number segments) ⟨UInt32.ofNat column, UInt32.ofNat row⟩,
      (mem_ofDimensions field size segments).mpr ⟨_, ?_, ?_, rfl⟩, ?_⟩
    · rwa [UInt32.lt_iff_toNat_lt, hc]
    · rwa [UInt32.lt_iff_toNat_lt, hr]
    · apply Tile.square_contains_iff.mpr
      rw [hc, hr]
      exact ⟨hx, hy⟩

theorem covers_point (hfits : field.Fits size) {s : Segment Rat} {p : Point Rat}
    (ha : (ofDimensions field size segments).Covers s.a)
    (hb : (ofDimensions field size segments).Covers s.b) (hp : s.Holds p) :
    (ofDimensions field size segments).Covers p := by
  obtain ⟨u, hu0, hu1, rfl⟩ := hp
  rw [covers_iff hfits] at ha hb ⊢
  have hx := Segment.between_of_unit hu0 hu1 ha.1 hb.1
  have hy := Segment.between_of_unit hu0 hu1 ha.2 hb.2
  simp only [Segment.point]
  constructor <;> constructor <;> linarith

/-! ## Lookup -/

theorem cellOf?_contains (hfits : field.Fits size) {p : Point Rat} {cell : Cell}
    (h : (ofDimensions field size segments).cellOf? p = some cell) :
    cell.column < size.columns ∧ cell.row < size.rows ∧
      (Tile.square field cell).contains p = true := by
  obtain ⟨hx0, hy0, hx1, hy1, rfl⟩ := of_cellOf?_eq_some h
  obtain ⟨hcolumn, hx⟩ := toWord_cell hfits.cell_pos hx0 hx1
  obtain ⟨hrow, hy⟩ := toWord_cell hfits.cell_pos hy0 hy1
  exact ⟨hcolumn, hrow, Tile.square_contains_iff.mpr ⟨hx, hy⟩⟩

theorem tileOf?_contains (hfits : field.Fits size) {p : Point Rat} {i : Nat}
    (h : (ofDimensions field size segments).tileOf? p = some i) :
    ∃ tile, (ofDimensions field size segments).tiles[i]? = some tile ∧
      tile.rect.contains p = true := by
  rw [tileOf?, Option.map_eq_some_iff] at h
  obtain ⟨cell, hcell, rfl⟩ := h
  obtain ⟨hcolumn, hrow, hp⟩ := cellOf?_contains hfits hcell
  refine ⟨Tile.ofCell field (Wall.number segments) cell, ?_, hp⟩
  rw [place_toNat hfits.dimensions_eq hcolumn hrow]
  exact ofDimensions_getElem?_place field size segments cell hcolumn hrow

/-! ## What a search can rely on -/

/-- What the tiles of a grid over the rationals guarantee to a search. -/
structure Exact (grid : Grid Rat) : Prop where
  proper : ∀ tile ∈ grid.tiles, tile.rect.Proper
  mem_walls_iff : ∀ tile ∈ grid.tiles, ∀ wall : Wall Rat, wall ∈ tile.walls ↔
    wall ∈ grid.walls ∧ tile.rect.touches wall.segment = true
  lookup : ∀ (p : Point Rat) (i : Nat), grid.tileOf? p = some i →
    ∃ tile, grid.tiles[i]? = some tile ∧ tile.rect.contains p = true
  convex : ∀ (s : Segment Rat) (p : Point Rat),
    grid.Covers s.a → grid.Covers s.b → s.Holds p → grid.Covers p

theorem exact_ofDimensions (hfits : field.Fits size) :
    (ofDimensions field size segments).Exact where
  proper tile htile := by
    obtain ⟨cell, -, -, rfl⟩ := (mem_ofDimensions field size segments).mp htile
    exact Tile.square_proper hfits.cell_pos cell
  mem_walls_iff tile htile wall := by
    obtain ⟨cell, -, -, rfl⟩ := (mem_ofDimensions field size segments).mp htile
    exact Tile.mem_walls
  lookup _ _ h := tileOf?_contains hfits h
  convex _ _ ha hb hp := covers_point hfits ha hb hp

/-- The grid of an accepted playfield can be relied on. -/
theorem build_exact {field : Playfield Rat} (hfield : field.validate = .ok ())
    (segments : List (Segment Rat)) :
    ∃ grid, build field segments = .ok grid ∧ grid.walls = Wall.number segments ∧
      grid.Exact := by
  obtain ⟨size, hfits⟩ := Playfield.exists_fits hfield
  exact ⟨ofDimensions field size segments, build_eq hfits.dimensions_eq segments, rfl,
    exact_ofDimensions hfits⟩

end Grid

end Raceway
