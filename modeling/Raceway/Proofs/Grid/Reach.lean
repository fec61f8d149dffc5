import Raceway.Proofs.Course
import Raceway.Proofs.Grid.Lookup
/-!
# Lookups in range

Doubles decide whether a point is looked up at all, and only then they are cut down to the words of
a cell.  A playfield that was never validated may make them no numbers, but the cell is always one
of the grid, and its place is that of a tile.  In a valid playfield no point of the box is left
out: rounding keeps the order, so no point has more whole cells before it than the far border, and
these are counted.
-/

namespace Raceway

theorem LookedUp.lt {origin cell x : Float} {count k : UInt32}
    (h : LookedUp origin cell count x k) (hcount : 0 < count) : k < count :=
  h.2.2 ▸ Double.toWord_lt hcount h.1 h.2.1

/-- The far border of an extent lies in the last of the strips that are counted. -/
theorem InExtent.exists_lookedUp {origin cell extent x : Float} {count : UInt32}
    (hx : InExtent origin extent x) (haxis : Axis origin cell) (hextent : Countable extent cell)
    (hquotient : (extent / cell).isFinite = true) (hcount : count.toNat = stripCount extent cell) :
    ∃ k, LookedUp origin cell count x k := by
  obtain ⟨hword, hwordValue⟩ := Double.ofWord_spec count
  obtain ⟨hfloor, hfloorValue⟩ := Double.floor_spec hquotient
  have hlow := haxis.rank_strip_nonneg (hx.origin_le hextent.extent_finite)
  have hhigh : strip origin cell x ≤ Double.floor (extent / cell) :=
    Double.floor_mono (Double.quotient_mono hextent.cell_finite hextent.cell_pos hx.2)
  have hlast : Double.floor (extent / cell) < count.toFloat := by
    refine Double.lt_iff.mpr ⟨Double.isNaN_of_isFinite hfloor, Double.isNaN_of_isFinite hword, ?_⟩
    rw [← Double.value_lt_value_iff hfloor hword, hfloorValue, hwordValue, hcount, stripCount,
      ← natCast_floor_eq_intCast_floor (hextent.quotient_nonneg hquotient)]
    exact_mod_cast Nat.lt_succ_self _
  have hnan := (Double.le_iff.mp hhigh).1
  refine ⟨_, Double.not_lt_of_le (Double.le_iff.mpr ⟨rfl, hnan, hlow⟩), fun hle => ?_, rfl⟩
  exact Double.not_lt_of_le (Double.le_trans hle hhigh) hlast

namespace Grid

/-- Whether a cell is one of the grid. -/
def Has {α : Type} (grid : Grid α) (cell : Cell) : Prop :=
  cell.column < grid.columns ∧ cell.row < grid.rows

theorem exists_of_build {α : Type} [Coord α] {field : Playfield α} {segments : List (Segment α)}
    {grid : Grid α} (h : build field segments = .ok grid) :
    ∃ size, field.dimensions = .ok size ∧ grid = ofDimensions field size segments := by
  obtain ⟨size, hsize, h⟩ := exists_of_bind_eq_ok h
  exact ⟨size, hsize, (Except.ok.inj h).symm⟩

section

variable {field : Playfield Float} {size : Dimensions} {segments : List (Segment Float)}

/-- A grid in which anything is looked up has tiles, and so has at least one column and row. -/
theorem has_of_cellOf? {p : Point Float} {cell : Cell}
    (h : (ofDimensions field size segments).cellOf? p = some cell) :
    (ofDimensions field size segments).Has cell := by
  obtain ⟨⟨-, htiles⟩, hx, hy⟩ := cellOf?_eq_some_iff.mp h
  have hsize : size.columns.toNat * size.rows.toNat ≠ 0 := by
    rw [← ofDimensions_size field size segments, Ne, Array.size_eq_zero_iff, ← Array.isEmpty_iff,
      htiles]
    exact Bool.false_ne_true
  have hpos := Nat.mul_ne_zero_iff.mp hsize
  exact ⟨hx.lt (UInt32.lt_iff_toNat_lt.mpr (Nat.pos_of_ne_zero hpos.1)),
    hy.lt (UInt32.lt_iff_toNat_lt.mpr (Nat.pos_of_ne_zero hpos.2))⟩

theorem eq_of_place_eq (hsize : field.dimensions = .ok size) {c d : Cell}
    (hc : (ofDimensions field size segments).Has c)
    (hd : (ofDimensions field size segments).Has d)
    (h : (ofDimensions field size segments).place c = (ofDimensions field size segments).place d) :
    c = d := by
  have hcellAt : size.cellAt (c.row.toNat * size.columns.toNat + c.column.toNat) = c :=
    Dimensions.cellAt_place hc.1
  rw [← UInt32.toNat_inj, place_toNat hsize hc.1 hc.2, place_toNat hsize hd.1 hd.2] at h
  rw [← hcellAt, h, Dimensions.cellAt_place hd.1]

end

/-- In every grid that has been built, also from a playfield that is not valid, the cells in which
points are looked up are cells of the grid.  The place of such a cell is computed in words without
an overflow, it is the place of a tile, and no two cells share one.  If the playfield is valid,
every point of its box is looked up in some cell. -/
theorem lookups_in_range {field : Playfield Float} {segments : List (Segment Float)}
    {grid : Grid Float} (hgrid : build field segments = .ok grid) :
    (∀ p cell, grid.cellOf? p = some cell → grid.Has cell ∧ grid.tileOf? p =
        some (cell.row.toNat * grid.columns.toNat + cell.column.toNat)) ∧
      (∀ cell, grid.Has cell →
        (grid.place cell).toNat = cell.row.toNat * grid.columns.toNat + cell.column.toNat ∧
        (grid.place cell).toNat < grid.tiles.size ∧
        cell.row.toNat * grid.columns.toNat + cell.column.toNat < 2 ^ 32) ∧
      (∀ c d, grid.Has c → grid.Has d → grid.place c = grid.place d → c = d) ∧
      (field.validate = .ok () → ∀ p, field.Holds p → ∃ cell, grid.cellOf? p = some cell) := by
  obtain ⟨size, hsize, rfl⟩ := exists_of_build hgrid
  refine ⟨fun p cell hcell => ?_, fun cell hcell => ?_, fun c d => eq_of_place_eq hsize,
    fun hvalid p hp => ?_⟩
  · have hhas := has_of_cellOf? hcell
    refine ⟨hhas, ?_⟩
    rw [tileOf?, hcell, Option.map_some, place_toNat hsize hhas.1 hhas.2]
    rfl
  · have hplace : ((ofDimensions field size segments).place cell).toNat =
        cell.row.toNat * size.columns.toNat + cell.column.toNat :=
      place_toNat hsize hcell.1 hcell.2
    refine ⟨hplace, ?_, ?_⟩
    · rw [hplace, ofDimensions_size]
      exact Dimensions.place_lt hcell.1 hcell.2
    · exact hplace ▸ UInt32.toNat_lt _
  · have haccepted := Playfield.validate_eq_ok_iff.mp hvalid
    have hfield := Playfield.regular_of_validate hvalid
    obtain ⟨size', hsize', hcolumns, hrows⟩ := haccepted.exists_dimensions
    obtain rfl : size = size' := Except.ok.inj (hsize.symm.trans hsize')
    obtain ⟨column, hx⟩ := hp.1.exists_lookedUp hfield.axisX
      (Playfield.countable_width haccepted.cell haccepted.box) haccepted.size.1.1 hcolumns
    obtain ⟨row, hy⟩ := hp.2.exists_lookedUp hfield.axisY
      (Playfield.countable_height haccepted.cell haccepted.box) haccepted.size.1.2 hrows
    have hfinite : p.isFinite = true := Bool.and_eq_true_iff.mpr
      ⟨(hp.1.isFinite hfield.width_finite).1, (hp.2.isFinite hfield.height_finite).1⟩
    have htiles : (ofDimensions field size segments).tiles.isEmpty = false := by
      rw [← Bool.not_eq_true, Array.isEmpty_iff, ← Array.size_eq_zero_iff, ofDimensions_size,
        hcolumns, hrows]
      exact Nat.mul_ne_zero (Nat.succ_ne_zero _) (Nat.succ_ne_zero _)
    exact ⟨⟨column, row⟩, cellOf?_eq_some_iff.mpr ⟨⟨hfinite, htiles⟩, hx, hy⟩⟩

/-- Seven tenths divided by a tenth is rounded to a double below 7, so that there are seven columns
only.  The far border of the box is looked up in the last of them. -/
theorem lookups_in_range_tenths :
    Playfield.tenths.validate = .ok () ∧ Playfield.tenths.Holds ⟨-0.3, 0.05⟩ ∧
      ∃ grid cell, build Playfield.tenths [] = .ok grid ∧
        grid.cellOf? ⟨-0.3, 0.05⟩ = some cell ∧ cell = ⟨6, 0⟩ ∧ grid.Has cell ∧
        (grid.place cell).toNat < grid.tiles.size := by
  have hsize : Playfield.tenths.dimensions = .ok ⟨7, 1⟩ := by rfl
  have hvalid : Playfield.tenths.validate = .ok () := by rfl
  have hholds : Playfield.tenths.Holds ⟨-0.3, 0.05⟩ := by decide +kernel
  obtain ⟨hcells, hplaces, -, hreach⟩ := lookups_in_range (build_eq hsize [])
  obtain ⟨cell, hcell⟩ := hreach hvalid _ hholds
  have hlast : (ofDimensions Playfield.tenths ⟨7, 1⟩ []).cellOf? ⟨-0.3, 0.05⟩ = some ⟨6, 0⟩ := by
    decide +kernel
  obtain ⟨hhas, -⟩ := hcells _ _ hcell
  exact ⟨hvalid, hholds, _, cell, build_eq hsize [], hcell,
    Option.some.inj (hcell.symm.trans hlast), hhas, (hplaces cell hhas).2.1⟩

end Grid

end Raceway
