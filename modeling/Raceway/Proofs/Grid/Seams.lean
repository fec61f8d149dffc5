import Raceway.Proofs.Geometry.BoxTest
import Raceway.Proofs.Grid.Acceptance
/-!
# Seams between tiles

A column of tiles ends one cell size behind its near border, and the next one begins a number of
cell sizes behind the origin.  Over doubles the two are rounded apart, so that there may be
doubles in between.  A grid lists every wall of its playfield exactly when there are none.
-/

namespace Raceway

/-! ## Strips of one axis -/

/-- Where the strip of tiles with a number begins. -/
def nearBorder (origin cell : Float) (k : UInt32) : Float :=
  origin + k.toFloat * cell

/-- Where the strip of tiles with a number ends. -/
def farBorder (origin cell : Float) (k : UInt32) : Float :=
  nearBorder origin cell k + cell

/-- Whether a coordinate lies in the box, by its distance from the origin. -/
def InExtent (origin extent x : Float) : Prop :=
  0 ≤ x - origin ∧ x - origin ≤ extent

instance (origin extent x : Float) : Decidable (InExtent origin extent x) :=
  inferInstanceAs (Decidable (_ ∧ _))

/-- Whether no coordinate of the box is behind the last strip or between two strips. -/
structure Seamless (origin cell extent : Float) (count : UInt32) : Prop where
  reaches : ∀ x, InExtent origin extent x → ∃ k < count, x ≤ farBorder origin cell k
  meets : ∀ x, InExtent origin extent x → ∀ k l : UInt32, l.toNat = k.toNat + 1 → l < count →
    ¬(farBorder origin cell k < x ∧ x < nearBorder origin cell l)

section

variable {origin cell extent x : Float} {count : UInt32}

theorem InExtent.isFinite (h : InExtent origin extent x) (hextent : extent.isFinite = true) :
    x.isFinite = true ∧ origin.isFinite = true := by
  obtain ⟨-, hnan, hlow⟩ := Double.le_iff.mp h.1
  obtain ⟨-, -, hhigh⟩ := Double.le_iff.mp h.2
  have hzero : Double.rank 0 = 0 := rfl
  have htop := Double.top_pos
  have hbounds := Double.rank_bounds_of_isFinite hextent
  exact Double.isFinite_of_sub (Double.isFinite_of_rank hnan (by omega) (by omega))

theorem InExtent.origin_le (h : InExtent origin extent x) (hextent : extent.isFinite = true) :
    origin ≤ x := by
  obtain ⟨hx, horigin⟩ := h.isFinite hextent
  obtain ⟨-, -, hlow⟩ := Double.le_iff.mp h.1
  exact Double.le_iff.mpr ⟨Double.isNaN_of_isFinite horigin, Double.isNaN_of_isFinite hx,
    Double.le_of_sub_nonneg hx horigin hlow⟩

theorem inExtent_origin (horigin : origin.isFinite = true) (hextent : 0 ≤ extent) :
    InExtent origin extent origin := by
  obtain ⟨hzero, hnan, hrank⟩ := Double.le_iff.mp hextent
  have hself := Double.rank_sub_self horigin
  have hdifference := (Double.sub_spec horigin horigin).1
  exact ⟨Double.le_iff.mpr ⟨hzero, hdifference, hself.ge⟩,
    Double.le_iff.mpr ⟨hdifference, hnan, hself.le.trans hrank⟩⟩

theorem nearBorder_mono (horigin : origin.isFinite = true) (hcell : cell.isFinite = true)
    (hpos : 0 ≤ Double.value cell) {k l : UInt32} (h : k ≤ l) :
    nearBorder origin cell k ≤ nearBorder origin cell l := by
  obtain ⟨hk, hkvalue⟩ := Double.ofWord_spec k
  obtain ⟨hl, hlvalue⟩ := Double.ofWord_spec l
  refine Double.sum_mono horigin (Double.product_mono hcell hpos hk hl ?_)
  rw [hkvalue, hlvalue]
  exact_mod_cast UInt32.le_iff_toNat_le.mp h

theorem farBorder_mono (horigin : origin.isFinite = true) (hcell : cell.isFinite = true)
    (hpos : 0 ≤ Double.value cell) {k l : UInt32} (h : k ≤ l) :
    farBorder origin cell k ≤ farBorder origin cell l := by
  rw [farBorder, farBorder, Double.sum_comm, Double.sum_comm (nearBorder origin cell l)]
  exact Double.sum_mono hcell (nearBorder_mono horigin hcell hpos h)

theorem nearBorder_zero (horigin : origin.isFinite = true) (hcell : cell.isFinite = true) :
    (nearBorder origin cell 0).isNaN = false ∧
      Double.rank (nearBorder origin cell 0) = Double.rank origin := by
  obtain ⟨hzero, hvalue⟩ := Double.ofWord_spec 0
  obtain ⟨hnan, hrank⟩ := Double.mul_spec hzero hcell
  rw [hvalue, UInt32.toNat_zero, Nat.cast_zero, zero_mul, Double.round_zero] at hrank
  have htop := Double.top_pos
  have hfinite := Double.isFinite_of_rank hnan (by omega) (by omega)
  obtain ⟨hnear, hnearRank⟩ := Double.add_spec horigin hfinite
  rw [Double.value_eq_zero hfinite hrank, add_zero, Double.round_value horigin] at hnearRank
  exact ⟨hnear, hnearRank⟩

theorem nearBorder_zero_le (horigin : origin.isFinite = true) (hcell : cell.isFinite = true)
    (h : origin ≤ x) : nearBorder origin cell 0 ≤ x := by
  obtain ⟨hnear, hrank⟩ := nearBorder_zero horigin hcell
  obtain ⟨-, hx, hle⟩ := Double.le_iff.mp h
  exact Double.le_iff.mpr ⟨hnear, hx, hrank.le.trans hle⟩

theorem Seamless.exists_strip (h : Seamless origin cell extent count)
    (hcell : cell.isFinite = true) (hpos : 0 ≤ Double.value cell)
    (hextent : extent.isFinite = true) (hx : InExtent origin extent x) :
    ∃ k < count, nearBorder origin cell k ≤ x ∧ x ≤ farBorder origin cell k := by
  obtain ⟨hxfinite, horigin⟩ := hx.isFinite hextent
  have hxnan := Double.isNaN_of_isFinite hxfinite
  have hnear (k : UInt32) : (nearBorder origin cell k).isNaN = false :=
    (Double.le_iff.mp (nearBorder_mono horigin hcell hpos (UInt32.le_refl k))).1
  have hfar (k : UInt32) : (farBorder origin cell k).isNaN = false :=
    (Double.le_iff.mp (farBorder_mono horigin hcell hpos (UInt32.le_refl k))).1
  by_contra! hnone
  -- A coordinate that no strip holds is behind every strip, one after the other.
  have hbehind (n : ℕ) : ∀ k : UInt32, k.toNat = n → k < count →
      nearBorder origin cell k ≤ x := by
    induction n with
    | zero =>
        intro k hk _
        obtain rfl : k = 0 := UInt32.toNat_inj.mp hk
        exact nearBorder_zero_le horigin hcell (hx.origin_le hextent)
    | succ n ih =>
        intro l hl hcount
        have hn : (UInt32.ofNat n).toNat = n :=
          UInt32.toNat_ofNat_of_lt' (by have := l.toNat_lt; simp only [UInt32.size]; omega)
        have hk : UInt32.ofNat n < count := by
          rw [UInt32.lt_iff_toNat_lt] at hcount ⊢
          omega
        have hpassed := hnone _ hk (ih _ hn hk)
        have hgap := h.meets x hx (UInt32.ofNat n) l (by omega) hcount
        refine Double.le_of_not_lt (hnear l) hxnan fun hlt => hgap ⟨?_, hlt⟩
        exact Double.lt_of_not_le hxnan (hfar _) hpassed
  obtain ⟨k, hk, hreach⟩ := h.reaches x hx
  exact hnone k hk (hbehind _ k rfl hk) hreach

/-- Strips that hold every coordinate of the box have no seams. -/
theorem seamless_of_strips (horigin : origin.isFinite = true) (hcell : cell.isFinite = true)
    (hpos : 0 ≤ Double.value cell)
    (h : ∀ x, InExtent origin extent x →
      ∃ k < count, nearBorder origin cell k ≤ x ∧ x ≤ farBorder origin cell k) :
    Seamless origin cell extent count := by
  constructor
  · intro x hx
    obtain ⟨k, hk, -, hle⟩ := h x hx
    exact ⟨k, hk, hle⟩
  · rintro x hx k l hl - ⟨hfar, hnear⟩
    obtain ⟨j, -, hlow, hhigh⟩ := h x hx
    -- The strip that holds it begins behind the seam or ends before it.
    rcases Nat.lt_or_ge k.toNat j.toNat with hlt | hge
    · have hlj : l ≤ j := by
        rw [UInt32.le_iff_toNat_le]
        omega
      exact Double.not_lt_of_le
        (Double.le_trans (nearBorder_mono horigin hcell hpos hlj) hlow) hnear
    · have hjk : j ≤ k := UInt32.le_iff_toNat_le.mpr hge
      exact Double.not_lt_of_le
        (Double.le_trans hhigh (farBorder_mono horigin hcell hpos hjk)) hfar

end

/-! ## Playfields -/

namespace Playfield

/-- Whether a point lies in the box of a playfield. -/
def Holds (field : Playfield Float) (p : Point Float) : Prop :=
  InExtent field.originX field.width p.x ∧ InExtent field.originY field.height p.y

instance (field : Playfield Float) (p : Point Float) : Decidable (field.Holds p) :=
  inferInstanceAs (Decidable (_ ∧ _))

/-- Whether every wall in the box is listed by some tile, whatever other walls there are. -/
def ListsAll (field : Playfield Float) : Prop :=
  ∀ segments : List (Segment Float), segments.length ≤ 2 ^ 32 →
    ∀ grid, Grid.build field segments = .ok grid →
      ∀ i s, segments[i]? = some s → field.Holds s.a → field.Holds s.b →
        ∃ tile ∈ grid.tiles, i ∈ tile.walls.map Wall.index

/-- What makes a playfield of doubles acceptable. -/
structure Regular (field : Playfield Float) : Prop where
  cell_finite : field.cellSize.isFinite = true
  cell_pos : 0 < Double.value field.cellSize
  originX_finite : field.originX.isFinite = true
  originY_finite : field.originY.isFinite = true
  width_finite : field.width.isFinite = true
  height_finite : field.height.isFinite = true
  width_nonneg : 0 ≤ field.width
  height_nonneg : 0 ≤ field.height
  exists_size : ∃ size, field.dimensions = .ok size

theorem Regular.cell_nonneg {field : Playfield Float} (h : field.Regular) :
    0 ≤ Double.value field.cellSize :=
  h.cell_pos.le

theorem regular_of_validate {field : Playfield Float} (h : field.validate = .ok ()) :
    field.Regular := by
  have haccepted := validate_eq_ok_iff.mp h
  obtain ⟨size, hsize, -⟩ := haccepted.exists_dimensions
  obtain ⟨hcell, ⟨⟨horiginX, horiginY, hwidth, hheight⟩, hwidth0, hheight0⟩, -⟩ := haccepted
  exact {
    cell_finite := hcell.1
    cell_pos := (Double.pos_iff hcell.1).mp hcell.2
    originX_finite := horiginX
    originY_finite := horiginY
    width_finite := hwidth
    height_finite := hheight
    width_nonneg := hwidth0
    height_nonneg := hheight0
    exists_size := ⟨size, hsize⟩ }

theorem contains_square_iff {field : Playfield Float} {cell : Cell} {p : Point Float} :
    (Tile.square field cell).contains p = true ↔
      (nearBorder field.originX field.cellSize cell.column ≤ p.x ∧
        p.x ≤ farBorder field.originX field.cellSize cell.column) ∧
      nearBorder field.originY field.cellSize cell.row ≤ p.y ∧
        p.y ≤ farBorder field.originY field.cellSize cell.row :=
  Rect.contains_iff_le

variable {field : Playfield Float} {size : Dimensions}

/-- Points are walls too: the tile that lists one contains it. -/
theorem ListsAll.exists_cell (h : field.ListsAll) (hfield : field.Regular)
    (hsize : field.dimensions = .ok size) {p : Point Float} (hp : field.Holds p) :
    ∃ cell : Cell, cell.column < size.columns ∧ cell.row < size.rows ∧
      (Tile.square field cell).contains p = true := by
  have hlen : [(⟨p, p⟩ : Segment Float)].length ≤ 2 ^ 32 := Nat.one_le_two_pow
  obtain ⟨tile, htile, hlisted⟩ := h [⟨p, p⟩] hlen _ (Grid.build_eq hsize _) 0 ⟨p, p⟩ rfl hp hp
  obtain ⟨wall, hwall, hindex⟩ := List.mem_map.mp hlisted
  obtain ⟨hsegment, htouch⟩ := Grid.walls_index field size _ hlen htile hwall
  rw [hindex] at hsegment
  rw [← Option.some.inj hsegment] at htouch
  obtain ⟨cell, hcolumn, hrow, rfl⟩ := (Grid.mem_ofDimensions field size _).mp htile
  exact ⟨cell, hcolumn, hrow, Rect.contains_of_touches_point
    (hp.1.isFinite hfield.width_finite).1 (hp.2.isFinite hfield.height_finite).1 htouch⟩

theorem listed_of_contains {segments : List (Segment Float)} (hlen : segments.length ≤ 2 ^ 32)
    {i : ℕ} {s : Segment Float} (hs : segments[i]? = some s) {cell : Cell}
    (hcolumn : cell.column < size.columns) (hrow : cell.row < size.rows)
    (h : (Tile.square field cell).contains s.a = true) :
    ∃ tile ∈ (Grid.ofDimensions field size segments).tiles, i ∈ tile.walls.map Wall.index := by
  have htile := (Grid.mem_ofDimensions field size segments).mpr ⟨cell, hcolumn, hrow, rfl⟩
  exact ⟨_, htile, Grid.mem_indices_of_touches field size segments hlen htile hs
    (Rect.touches_of_contains (Or.inl h))⟩

/-- A grid lists every wall of its box exactly when neither its columns nor its rows have a seam
that a coordinate of the box falls into. -/
theorem listsAll_iff_seamless {field : Playfield Float} (hvalid : field.validate = .ok ()) :
    field.ListsAll ↔ ∃ size, field.dimensions = .ok size ∧
      Seamless field.originX field.cellSize field.width size.columns ∧
      Seamless field.originY field.cellSize field.height size.rows := by
  have hfield := regular_of_validate hvalid
  obtain ⟨size, hsize⟩ := hfield.exists_size
  constructor
  · intro h
    refine ⟨size, hsize, ?_, ?_⟩
    · refine seamless_of_strips hfield.originX_finite hfield.cell_finite hfield.cell_nonneg
        fun x hx => ?_
      obtain ⟨cell, hcolumn, -, hcontains⟩ := h.exists_cell hfield hsize (p := ⟨x, field.originY⟩)
        ⟨hx, inExtent_origin hfield.originY_finite hfield.height_nonneg⟩
      exact ⟨cell.column, hcolumn, (contains_square_iff.mp hcontains).1⟩
    · refine seamless_of_strips hfield.originY_finite hfield.cell_finite hfield.cell_nonneg
        fun y hy => ?_
      obtain ⟨cell, -, hrow, hcontains⟩ := h.exists_cell hfield hsize (p := ⟨field.originX, y⟩)
        ⟨inExtent_origin hfield.originX_finite hfield.width_nonneg, hy⟩
      exact ⟨cell.row, hrow, (contains_square_iff.mp hcontains).2⟩
  · rintro ⟨size', hsize', hcolumns, hrows⟩ segments hlen grid hgrid i s hs ha -
    obtain ⟨column, hcolumn, hx⟩ := hcolumns.exists_strip hfield.cell_finite hfield.cell_nonneg
      hfield.width_finite ha.1
    obtain ⟨row, hrow, hy⟩ := hrows.exists_strip hfield.cell_finite hfield.cell_nonneg
      hfield.height_finite ha.2
    have hcontains : (Tile.square field ⟨column, row⟩).contains s.a = true :=
      contains_square_iff.mpr ⟨hx, hy⟩
    rw [Grid.build_eq hsize', Except.ok.injEq] at hgrid
    rw [← hgrid]
    exact listed_of_contains hlen hs hcolumn hrow hcontains

theorem seamless_units : Seamless 0 1 1 2 := by
  constructor
  · rintro x hx
    obtain ⟨hfinite, -⟩ := hx.isFinite rfl
    obtain ⟨-, -, hle⟩ := Double.le_iff.mp hx.2
    have hzero : Double.value 0 = 0 := Double.value_eq_zero rfl rfl
    rw [(Double.sub_spec hfinite rfl).2, hzero, sub_zero, Double.round_value hfinite] at hle
    have hone : (1 : Float) ≤ farBorder 0 1 1 := by decide +kernel
    refine ⟨1, by decide, Double.le_trans (Double.le_iff.mpr ?_) hone⟩
    exact ⟨Double.isNaN_of_isFinite hfinite, rfl, hle⟩
  · rintro x - k l hl hlt ⟨hfar, hnear⟩
    have hbound : l.toNat < 2 := UInt32.lt_iff_toNat_lt.mp hlt
    obtain rfl : k = 0 := UInt32.toNat_inj.mp (by simp; omega)
    obtain rfl : l = 1 := UInt32.toNat_inj.mp (by simp; omega)
    have hmeet : nearBorder 0 1 1 ≤ farBorder 0 1 0 := by decide +kernel
    exact Double.not_lt_of_le hmeet (Double.lt_trans hfar hnear)

/-- Four tiles of size 1 list every wall of a box of size 1. -/
theorem listsAll_iff_seamless_units :
    (⟨0, 0, 1, 1, 1⟩ : Playfield Float).validate = .ok () ∧
      (⟨0, 0, 1, 1, 1⟩ : Playfield Float).ListsAll := by
  have hvalid : (⟨0, 0, 1, 1, 1⟩ : Playfield Float).validate = .ok () := by rfl
  have hsize : (⟨0, 0, 1, 1, 1⟩ : Playfield Float).dimensions = .ok ⟨2, 2⟩ := by rfl
  exact ⟨hvalid, (listsAll_iff_seamless hvalid).mpr
    ⟨⟨2, 2⟩, hsize, seamless_units, seamless_units⟩⟩

/-- Cells of a tenth from -1 on. The sixth column ends at -0.4, and the seventh begins two doubles
later. -/
def tenths : Playfield Float :=
  ⟨-1, 0, 0.7, 0.05, 0.1⟩

/-- A wall between two columns of the playfield. -/
def wallInSeam : Segment Float :=
  ⟨⟨-0.39999999999999997, 0.01⟩, ⟨-0.39999999999999997, 0.04⟩⟩

/-- A wall of the box that no tile lists. -/
theorem tenths_lose_wall :
    tenths.validate = .ok () ∧ tenths.Holds wallInSeam.a ∧ tenths.Holds wallInSeam.b ∧
      ∃ grid, Grid.build tenths [wallInSeam] = .ok grid ∧
        ∀ tile ∈ grid.tiles, tile.walls = [] := by
  have hsize : tenths.dimensions = .ok ⟨7, 1⟩ := by rfl
  have hempty : ((Grid.ofDimensions tenths ⟨7, 1⟩ [wallInSeam]).tiles.all
      fun tile => tile.walls.isEmpty) = true := by decide +kernel
  refine ⟨by rfl, by decide +kernel, by decide +kernel, _, Grid.build_eq hsize _,
    fun tile htile => ?_⟩
  exact List.isEmpty_iff.mp (Array.all_eq_true_iff_forall_mem.mp hempty tile htile)

end Playfield

end Raceway
