import Mathlib.Algebra.Order.Ring.Nat
import Raceway.Grid.Basic
/-!
# The tiles of a grid

A grid has one tile for each cell of its columns and rows, row by row.  Each tile lists exactly
the walls that touch its square, in ascending order, and the words it lists lead back to those
walls.  The lists do not depend on the order in which the tiles are filled.
-/

namespace Raceway

variable {α : Type}

namespace Wall

/-! ## Numbered walls -/

@[simp] theorem number_getElem? (segments : List (Segment α)) (i : Nat) :
    (number segments)[i]? = segments[i]?.map fun s => ⟨UInt32.ofNat i, s⟩ := by
  simp [number, Option.map_map, Function.comp_def]

theorem mem_number {segments : List (Segment α)} {wall : Wall α} :
    wall ∈ number segments ↔
      ∃ i, segments[i]? = some wall.segment ∧ wall.word = UInt32.ofNat i := by
  rw [List.mem_iff_getElem?]
  constructor
  · rintro ⟨i, hi⟩
    rw [number_getElem?, Option.map_eq_some_iff] at hi
    obtain ⟨s, hs, rfl⟩ := hi
    exact ⟨i, hs, rfl⟩
  · rintro ⟨i, hs, hword⟩
    refine ⟨i, ?_⟩
    simp [hs, ← hword]

theorem segment_of_mem_number {segments : List (Segment α)} (hlen : segments.length ≤ 2 ^ 32)
    {wall : Wall α} (hwall : wall ∈ number segments) :
    segments[wall.index]? = some wall.segment := by
  obtain ⟨i, hs, hword⟩ := mem_number.mp hwall
  have hi : i < 2 ^ 32 := by
    have hlt := (List.getElem?_eq_some_iff.mp hs).1
    omega
  rw [index, hword, UInt32.toNat_ofNat_of_lt' hi]
  exact hs

theorem mem_number_of_getElem? {segments : List (Segment α)} {i : Nat} {s : Segment α}
    (hs : segments[i]? = some s) : ⟨UInt32.ofNat i, s⟩ ∈ number segments :=
  mem_number.mpr ⟨i, hs, rfl⟩

@[simp] theorem map_segment_number (segments : List (Segment α)) :
    (number segments).map segment = segments := by
  apply List.ext_getElem?
  intro i
  rw [List.getElem?_map, number_getElem?, Option.map_map]
  simp [Function.comp_def]

theorem forall_segments {segments : List (Segment α)} {P : Segment α → Prop} :
    (∀ s ∈ segments, P s) ↔ ∀ wall ∈ number segments, P wall.segment := by
  conv_lhs => rw [← map_segment_number segments]
  exact List.forall_mem_map

theorem exists_segments {segments : List (Segment α)} {P : Segment α → Prop} :
    (∃ s ∈ segments, P s) ↔ ∃ wall ∈ number segments, P wall.segment := by
  conv_lhs => rw [← map_segment_number segments]
  simp only [List.mem_map, exists_exists_and_eq_and]

theorem pairwise_number {segments : List (Segment α)} (hlen : segments.length ≤ 2 ^ 32) :
    (number segments).Pairwise fun v w => v.index < w.index := by
  rw [List.pairwise_iff_getElem]
  intro i j hi hj hij
  have hlength : (number segments).length = segments.length := by simp [number]
  simp only [number, List.getElem_map, List.getElem_zipIdx, index, Nat.zero_add]
  rw [UInt32.toNat_ofNat_of_lt' (by simp only [UInt32.size]; omega),
    UInt32.toNat_ofNat_of_lt' (by simp only [UInt32.size]; omega)]
  exact hij

end Wall

namespace Dimensions

/-! ## Cells row by row -/

/-- The cell at a place of the row-by-row order. -/
def cellAt (size : Dimensions) (index : Nat) : Cell :=
  ⟨UInt32.ofNat (index % size.columns.toNat), UInt32.ofNat (index / size.columns.toNat)⟩

theorem cells_eq (size : Dimensions) :
    size.cells = (Array.range (size.columns.toNat * size.rows.toNat)).map size.cellAt := by
  rw [cells]
  induction size.rows.toNat with
  | zero => simp [Array.range]
  | succ row ih =>
      rw [Array.range_succ, Array.flatMap_append, ih, Nat.mul_succ, Array.range_add,
        Array.map_append, Array.flatMap_singleton, Array.map_map]
      congr 1
      apply Array.map_congr_left
      intro column hcolumn
      have hlt : column < size.columns.toNat := Array.mem_range.mp hcolumn
      rw [Function.comp_apply, cellAt, Nat.mul_add_mod, Nat.mod_eq_of_lt hlt,
        Nat.mul_add_div (Nat.zero_lt_of_lt hlt), Nat.div_eq_of_lt hlt, Nat.add_zero]

theorem cellAt_place {size : Dimensions} {cell : Cell} (hcolumn : cell.column < size.columns) :
    size.cellAt (cell.row.toNat * size.columns.toNat + cell.column.toNat) = cell := by
  have hlt : cell.column.toNat < size.columns.toNat := UInt32.lt_iff_toNat_lt.mp hcolumn
  obtain ⟨column, row⟩ := cell
  simp only [cellAt, Cell.mk.injEq]
  constructor
  · rw [Nat.mul_add_mod', Nat.mod_eq_of_lt hlt]
    exact UInt32.ofNat_toNat
  · rw [Nat.add_comm, Nat.add_mul_div_right _ _ (by omega), Nat.div_eq_of_lt hlt, Nat.zero_add]
    exact UInt32.ofNat_toNat

theorem place_lt {size : Dimensions} {cell : Cell} (hcolumn : cell.column < size.columns)
    (hrow : cell.row < size.rows) :
    cell.row.toNat * size.columns.toNat + cell.column.toNat <
      size.columns.toNat * size.rows.toNat := by
  have hc : cell.column.toNat < size.columns.toNat := UInt32.lt_iff_toNat_lt.mp hcolumn
  have hr : cell.row.toNat + 1 ≤ size.rows.toNat := UInt32.lt_iff_toNat_lt.mp hrow
  calc cell.row.toNat * size.columns.toNat + cell.column.toNat
      < (cell.row.toNat + 1) * size.columns.toNat := by rw [Nat.add_mul]; omega
    _ ≤ size.rows.toNat * size.columns.toNat := Nat.mul_le_mul_right _ hr
    _ = size.columns.toNat * size.rows.toNat := Nat.mul_comm _ _

theorem cellAt_lt {size : Dimensions} {i : Nat}
    (hi : i < size.columns.toNat * size.rows.toNat) :
    (size.cellAt i).column < size.columns ∧ (size.cellAt i).row < size.rows := by
  have hpos : 0 < size.columns.toNat := Nat.pos_of_ne_zero fun h => by simp [h] at hi
  have hmod : i % size.columns.toNat < size.columns.toNat := Nat.mod_lt _ hpos
  have hdiv : i / size.columns.toNat < size.rows.toNat := Nat.div_lt_of_lt_mul hi
  have hc := size.columns.toNat_lt
  have hr := size.rows.toNat_lt
  rw [UInt32.lt_iff_toNat_lt, UInt32.lt_iff_toNat_lt]
  simp only [cellAt]
  rw [UInt32.toNat_ofNat_of_lt' (Nat.lt_trans hmod hc),
    UInt32.toNat_ofNat_of_lt' (Nat.lt_trans hdiv hr)]
  exact ⟨hmod, hdiv⟩

end Dimensions

theorem Grid.wallRefs_eq_sum (grid : Grid α) :
    grid.wallRefs = (grid.tiles.toList.map fun tile => tile.walls.length).sum := by
  rw [wallRefs, ← Array.foldl_toList, List.sum_eq_foldl, List.foldl_map]

variable [Coord α]

theorem Playfield.tileCount_le {field : Playfield α} {size : Dimensions}
    (h : field.dimensions = .ok size) : size.columns.toNat * size.rows.toNat ≤ 2 ^ 22 := by
  simp only [Playfield.dimensions] at h
  split_ifs at h with _ hcount
  obtain rfl := Except.ok.inj h
  exact hcount

namespace Tile

theorem mem_walls {field : Playfield α} {walls : List (Wall α)} {cell : Cell} {wall : Wall α} :
    wall ∈ (ofCell field walls cell).walls ↔
      wall ∈ walls ∧ (square field cell).touches wall.segment = true := by
  simp [ofCell, fill]

@[simp] theorem fill_fill (walls : List (Wall α)) (tile : Tile α) :
    fill walls (fill walls tile) = fill walls tile := rfl

theorem fill_of_rect_eq {walls : List (Wall α)} {s t : Tile α} (h : s.rect = t.rect) :
    fill walls s = fill walls t := by
  simp [fill, h]

end Tile

namespace Grid

/-! ## Built grids -/

theorem build_eq {field : Playfield α} {size : Dimensions} (h : field.dimensions = .ok size)
    (segments : List (Segment α)) :
    build field segments = .ok (ofDimensions field size segments) := by
  rw [build, h]
  rfl

variable (field : Playfield α) (size : Dimensions) (segments : List (Segment α))

@[simp] theorem ofDimensions_size :
    (ofDimensions field size segments).tiles.size = size.columns.toNat * size.rows.toNat := by
  simp [ofDimensions, Dimensions.cells_eq]

theorem ofDimensions_getElem? {i : Nat} (hi : i < size.columns.toNat * size.rows.toNat) :
    (ofDimensions field size segments).tiles[i]? =
      some (Tile.ofCell field (Wall.number segments) (size.cellAt i)) := by
  simp [ofDimensions, Dimensions.cells_eq, hi]

theorem ofDimensions_getElem?_place (cell : Cell) (hcolumn : cell.column < size.columns)
    (hrow : cell.row < size.rows) :
    (ofDimensions field size segments).tiles[
        cell.row.toNat * size.columns.toNat + cell.column.toNat]? =
      some (Tile.ofCell field (Wall.number segments) cell) := by
  rw [ofDimensions_getElem? _ _ _ (Dimensions.place_lt hcolumn hrow),
    Dimensions.cellAt_place hcolumn]

theorem mem_ofDimensions {tile : Tile α} :
    tile ∈ (ofDimensions field size segments).tiles ↔
      ∃ cell : Cell, cell.column < size.columns ∧ cell.row < size.rows ∧
        tile = Tile.ofCell field (Wall.number segments) cell := by
  rw [Array.mem_iff_getElem?]
  constructor
  · rintro ⟨i, hi⟩
    have hlt : i < size.columns.toNat * size.rows.toNat := by
      rw [← ofDimensions_size field size segments]
      exact (Array.getElem?_eq_some_iff.mp hi).1
    rw [ofDimensions_getElem? _ _ _ hlt] at hi
    obtain ⟨hcolumn, hrow⟩ := Dimensions.cellAt_lt hlt
    exact ⟨size.cellAt i, hcolumn, hrow, (Option.some.inj hi).symm⟩
  · rintro ⟨cell, hcolumn, hrow, rfl⟩
    exact ⟨_, ofDimensions_getElem?_place field size segments _ hcolumn hrow⟩

theorem of_cellOf?_eq_some {grid : Grid α} {p : Point α} {cell : Cell}
    (h : grid.cellOf? p = some cell) :
    let column := Coord.floor ((p.x - grid.originX) / grid.cellSize)
    let row := Coord.floor ((p.y - grid.originY) / grid.cellSize)
    ¬ column < 0 ∧ ¬ row < 0 ∧ ¬ Coord.ofWord grid.columns ≤ column ∧
      ¬ Coord.ofWord grid.rows ≤ row ∧ ⟨Coord.toWord column, Coord.toWord row⟩ = cell := by
  unfold cellOf? at h
  split at h
  · cases h
  · simp only at h
    split at h
    · cases h
    · rename_i hin
      simp only [Bool.or_eq_true, decide_eq_true_eq, not_or] at hin
      obtain ⟨⟨⟨hx0, hy0⟩, hx1⟩, hy1⟩ := hin
      exact ⟨hx0, hy0, hx1, hy1, Option.some.inj h⟩

theorem place_toNat {field : Playfield α} {size : Dimensions} {segments : List (Segment α)}
    (hsize : field.dimensions = .ok size) {cell : Cell} (hcolumn : cell.column < size.columns)
    (hrow : cell.row < size.rows) :
    ((ofDimensions field size segments).place cell).toNat =
      cell.row.toNat * size.columns.toNat + cell.column.toNat := by
  have hplace := Dimensions.place_lt hcolumn hrow
  have hcount := Playfield.tileCount_le hsize
  have hcolumns : (ofDimensions field size segments).columns = size.columns := rfl
  rw [place, hcolumns, UInt32.toNat_add, UInt32.toNat_mul,
    Nat.mod_eq_of_lt (a := cell.row.toNat * size.columns.toNat) (by omega),
    Nat.mod_eq_of_lt (by omega)]

/-! ## Filling in any order -/

/-- Fills the tiles at some places, one after the other. -/
def fillAt (walls : List (Wall α)) (tiles : Array (Tile α)) (places : List Nat) :
    Array (Tile α) :=
  places.foldl (fun tiles i => tiles.modify i (Tile.fill walls)) tiles

theorem fillAt_getElem? (walls : List (Wall α)) (tiles : Array (Tile α)) (places : List Nat)
    (i : Nat) :
    (fillAt walls tiles places)[i]? =
      if i ∈ places then tiles[i]?.map (Tile.fill walls) else tiles[i]? := by
  induction places generalizing tiles with
  | nil => simp [fillAt]
  | cons j places ih =>
      have hstep : fillAt walls tiles (j :: places) =
          fillAt walls (tiles.modify j (Tile.fill walls)) places := rfl
      rw [hstep, ih, Array.getElem?_modify]
      by_cases hji : j = i
      · subst hji
        by_cases hmem : j ∈ places <;> simp [hmem, Function.comp_def, Tile.fill_fill]
      · simp [hji, Ne.symm hji]

/-- Tiles with the squares of a grid, whatever they list and in whatever order they are filled,
become the tiles of the grid. -/
theorem fillAt_eq {held : Array (Tile α)} {places : List Nat}
    (hrect : held.map Tile.rect = (ofDimensions field size segments).tiles.map Tile.rect)
    (hall : ∀ i < held.size, i ∈ places) :
    fillAt (Wall.number segments) held places = (ofDimensions field size segments).tiles := by
  have hsize : held.size = size.columns.toNat * size.rows.toNat := by
    have h := congrArg Array.size hrect
    rwa [Array.size_map, Array.size_map, ofDimensions_size] at h
  apply Array.ext_getElem?
  intro i
  rw [fillAt_getElem?]
  by_cases hi : i < held.size
  · have hi' : i < size.columns.toNat * size.rows.toNat := hsize ▸ hi
    have hrect_i := congrArg (fun rects => rects[i]?) hrect
    simp only [Array.getElem?_map] at hrect_i
    rw [ofDimensions_getElem? _ _ _ hi', Array.getElem?_eq_getElem hi] at hrect_i
    rw [if_pos (hall i hi), ofDimensions_getElem? _ _ _ hi', Array.getElem?_eq_getElem hi,
      Option.map_some]
    exact congrArg some (Tile.fill_of_rect_eq (Option.some.inj hrect_i))
  · rw [Array.getElem?_eq_none (by omega), Array.getElem?_eq_none (by
      rw [ofDimensions_size]; omega)]
    simp

/-! ## The pairs of a tile and a wall -/

theorem length_walls_of_mem {tile : Tile α}
    (htile : tile ∈ (ofDimensions field size segments).tiles) :
    tile.walls.length = segments.countP tile.rect.touches := by
  obtain ⟨cell, -, -, rfl⟩ := (mem_ofDimensions field size segments).mp htile
  set rect := Tile.square field cell
  calc (Tile.ofCell field (Wall.number segments) cell).walls.length
      = (Wall.number segments).countP fun wall => rect.touches wall.segment :=
        List.countP_eq_length_filter.symm
    _ = ((Wall.number segments).map Wall.segment).countP rect.touches := by
        rw [List.countP_map]
        rfl
    _ = segments.countP rect.touches := by rw [Wall.map_segment_number]

theorem wallRefs_ofDimensions :
    (ofDimensions field size segments).wallRefs =
      ((ofDimensions field size segments).tiles.toList.product segments).countP
        fun pair => pair.1.rect.touches pair.2 := by
  rw [wallRefs_eq_sum, List.product, List.countP_flatMap]
  congr 1
  apply List.map_congr_left
  intro tile htile
  rw [length_walls_of_mem field size segments (Array.mem_toList_iff.mp htile)]
  simp only [Function.comp_apply, List.countP_map]
  rfl

/-! ## The representation of a grid -/

/-- What the tiles of a grid hold, for the segments of its walls. -/
structure Represents (grid : Grid α) (field : Playfield α) (size : Dimensions)
    (segments : List (Segment α)) : Prop where
  columns_eq : grid.columns = size.columns
  rows_eq : grid.rows = size.rows
  tileCount : grid.tiles.size = size.columns.toNat * size.rows.toNat
  tileCount_le : grid.tiles.size ≤ 2 ^ 22
  rect_eq : ∀ row column : UInt32, row < size.rows → column < size.columns →
    ∃ tile, grid.tiles[row.toNat * size.columns.toNat + column.toNat]? = some tile ∧
      tile.rect = Rect.ofCorner
        (field.originX + Coord.ofWord column * field.cellSize)
        (field.originY + Coord.ofWord row * field.cellSize) field.cellSize field.cellSize
  ascending : ∀ tile ∈ grid.tiles, (tile.walls.map Wall.index).Pairwise (· < ·)
  lists_iff : ∀ tile ∈ grid.tiles, ∀ i, i ∈ tile.walls.map Wall.index ↔
    ∃ s, segments[i]? = some s ∧ tile.rect.touches s = true
  /-- The words that a tile lists lead to the walls that were tested. -/
  wall?_word : ∀ tile ∈ grid.tiles, ∀ wall ∈ tile.walls,
    wall.index < segments.length ∧ segments[wall.index]? = some wall.segment ∧
      grid.wall? wall.word = some wall.segment
  wallRefs_eq : grid.wallRefs =
    (grid.tiles.toList.product segments).countP fun pair => pair.1.rect.touches pair.2
  /-- Tiles with the same squares end up the same, whatever they listed before, if every one of
  them is filled at some time. -/
  fillAt_any : ∀ held places, held.map Tile.rect = grid.tiles.map Tile.rect →
    (∀ i < held.size, i ∈ places) → fillAt grid.walls held places = grid.tiles

theorem walls_index {tile : Tile α} (hlen : segments.length ≤ 2 ^ 32)
    (htile : tile ∈ (ofDimensions field size segments).tiles) {wall : Wall α}
    (hwall : wall ∈ tile.walls) :
    segments[wall.index]? = some wall.segment ∧ tile.rect.touches wall.segment = true := by
  obtain ⟨cell, -, -, rfl⟩ := (mem_ofDimensions field size segments).mp htile
  obtain ⟨hmem, htouch⟩ := Tile.mem_walls.mp hwall
  exact ⟨Wall.segment_of_mem_number hlen hmem, htouch⟩

theorem mem_walls_of_touches {tile : Tile α}
    (htile : tile ∈ (ofDimensions field size segments).tiles) {i : Nat} {s : Segment α}
    (hs : segments[i]? = some s) (htouch : tile.rect.touches s = true) :
    ⟨UInt32.ofNat i, s⟩ ∈ tile.walls := by
  obtain ⟨cell, -, -, rfl⟩ := (mem_ofDimensions field size segments).mp htile
  exact Tile.mem_walls.mpr ⟨Wall.mem_number_of_getElem? hs, htouch⟩

theorem mem_indices_of_touches {tile : Tile α} (hlen : segments.length ≤ 2 ^ 32)
    (htile : tile ∈ (ofDimensions field size segments).tiles) {i : Nat} {s : Segment α}
    (hs : segments[i]? = some s) (htouch : tile.rect.touches s = true) :
    i ∈ tile.walls.map Wall.index := by
  have hwall := mem_walls_of_touches field size segments htile hs htouch
  have hi := (List.getElem?_eq_some_iff.mp hs).1
  exact List.mem_map.mpr ⟨_, hwall,
    UInt32.toNat_ofNat_of_lt' (by simp only [UInt32.size]; omega)⟩

theorem walls_ascending {tile : Tile α} (hlen : segments.length ≤ 2 ^ 32)
    (htile : tile ∈ (ofDimensions field size segments).tiles) :
    (tile.walls.map Wall.index).Pairwise (· < ·) := by
  obtain ⟨cell, -, -, rfl⟩ := (mem_ofDimensions field size segments).mp htile
  rw [List.pairwise_map]
  exact (Wall.pairwise_number hlen).filter _

theorem wall?_of_getElem? {wall : Wall α} (hs : segments[wall.index]? = some wall.segment) :
    (ofDimensions field size segments).wall? wall.word = some wall.segment := by
  have hwalls : (ofDimensions field size segments).walls = Wall.number segments := rfl
  rw [Wall.index] at hs
  rw [wall?, hwalls, Wall.number_getElem?, hs]
  rfl

/-- Wherever its dimensions are accepted, a playfield with at most as many walls as there are
words is cut into tiles that list exactly the walls that touch them. -/
theorem build_represents {α : Type} [Coord α] {field : Playfield α} {size : Dimensions}
    (hsize : field.dimensions = .ok size) {segments : List (Segment α)}
    (hlen : segments.length ≤ 2 ^ 32) :
    ∃ grid, build field segments = .ok grid ∧ grid.Represents field size segments := by
  refine ⟨ofDimensions field size segments, build_eq hsize segments, ?_⟩
  have hcount := ofDimensions_size field size segments
  exact {
    columns_eq := rfl
    rows_eq := rfl
    tileCount := hcount
    tileCount_le := hcount ▸ Playfield.tileCount_le hsize
    rect_eq := fun row column hrow hcolumn =>
      ⟨_, ofDimensions_getElem?_place field size segments ⟨column, row⟩ hcolumn hrow, rfl⟩
    ascending := fun tile htile => walls_ascending field size segments hlen htile
    lists_iff := by
      intro tile htile i
      constructor
      · intro hi
        obtain ⟨wall, hwall, rfl⟩ := List.mem_map.mp hi
        exact ⟨wall.segment, walls_index field size segments hlen htile hwall⟩
      · rintro ⟨s, hs, htouch⟩
        exact mem_indices_of_touches field size segments hlen htile hs htouch
    wall?_word := by
      intro tile htile wall hwall
      obtain ⟨hs, -⟩ := walls_index field size segments hlen htile hwall
      exact ⟨(List.getElem?_eq_some_iff.mp hs).1, hs, wall?_of_getElem? field size segments hs⟩
    wallRefs_eq := wallRefs_ofDimensions field size segments
    fillAt_any := fun held places hrect hall =>
      fillAt_eq field size segments hrect hall }

/-- A wall that passes straight through three of nine tiles. -/
theorem build_represents_nine :
    (⟨0, 0, 20, 20, 10⟩ : Playfield Float).dimensions = .ok ⟨3, 3⟩ ∧
      ∃ grid, build ⟨0, 0, 20, 20, 10⟩ [⟨⟨-5, 15⟩, ⟨35, 15⟩⟩] = .ok grid ∧
        grid.Represents (⟨0, 0, 20, 20, 10⟩ : Playfield Float) ⟨3, 3⟩ [⟨⟨-5, 15⟩, ⟨35, 15⟩⟩] :=
  ⟨rfl, build_represents rfl (by decide)⟩

end Grid
end Raceway
