import Raceway.Proofs.Double.Whole
import Raceway.Proofs.Grid.Tiling
/-!
# Accepted playfields

How many columns and rows a playfield takes is counted in doubles, which are rounded and may be
infinite, and the counts are multiplied and compared with the limit before they are cut down to
words.  None of this loses anything: a playfield is accepted exactly when the exact product of its
counts is within the limit, and then the counts are its dimensions.
-/

namespace Raceway

/-! ## Counting along one axis -/

/-- The exact number of strips that an extent takes, one more than its whole number of cells. -/
def stripCount (extent cell : Float) : ℕ :=
  ⌊Double.value (extent / cell)⌋₊ + 1

/-- The number of strips that an extent takes, as it is counted in doubles. -/
def countedStrips (extent cell : Float) : Float :=
  Double.floor (extent / cell) + 1

/-- A finite extent that is not negative, and finite cells of a positive size to count in it. -/
structure Countable (extent cell : Float) : Prop where
  extent_finite : extent.isFinite = true
  extent_nonneg : 0 ≤ extent
  cell_finite : cell.isFinite = true
  cell_pos : 0 < Double.value cell

namespace Countable

variable {extent cell : Float}

theorem quotient_spec (h : Countable extent cell) :
    (extent / cell).isNaN = false ∧
      Double.rank (extent / cell) = Double.round (Double.value extent / Double.value cell) :=
  Double.div_spec h.extent_finite h.cell_finite h.cell_pos.ne'

theorem quotient_nonneg (h : Countable extent cell) (hquotient : (extent / cell).isFinite = true) :
    0 ≤ Double.value (extent / cell) := by
  have hvalue : 0 ≤ Double.value extent :=
    (Double.value_nonneg_iff h.extent_finite).mpr (Double.rank_le_rank h.extent_nonneg)
  rw [Double.value_nonneg_iff hquotient, h.quotient_spec.2, ← Double.round_zero]
  exact Double.round_mono (div_nonneg hvalue h.cell_pos.le)

theorem quotient_isFinite (h : Countable extent cell)
    (hcounted : (countedStrips extent cell).isFinite = true) :
    (extent / cell).isFinite = true :=
  Double.isFinite_of_floor h.quotient_spec.1 (Double.isFinite_of_add hcounted).1

theorem counted_spec (h : Countable extent cell) (hquotient : (extent / cell).isFinite = true) :
    (countedStrips extent cell).isNaN = false ∧
      Double.rank (countedStrips extent cell) = Double.round (stripCount extent cell) := by
  obtain ⟨hfloor, hvalue⟩ := Double.floor_spec hquotient
  obtain ⟨hnan, hrank⟩ := Double.add_spec hfloor Double.one_spec.1
  refine ⟨hnan, hrank.trans ?_⟩
  rw [hvalue, Double.one_spec.2, stripCount, Nat.cast_add, Nat.cast_one,
    natCast_floor_eq_intCast_floor (h.quotient_nonneg hquotient)]

theorem counted_exact (h : Countable extent cell) (hquotient : (extent / cell).isFinite = true)
    (hsmall : stripCount extent cell < 2 ^ 53) :
    (countedStrips extent cell).isFinite = true ∧
      Double.value (countedStrips extent cell) = stripCount extent cell := by
  obtain ⟨hnan, hrank⟩ := h.counted_spec hquotient
  obtain ⟨hfinite, hvalue⟩ := Double.value_of_whole (n := stripCount extent cell) hsmall hnan
    (by rw [hrank, Int.cast_natCast])
  exact ⟨hfinite, hvalue.trans (Int.cast_natCast _)⟩

/-- The word that a count is cut down to is the exact count, unless that is too large for a
word. -/
theorem counted_toNat (h : Countable extent cell)
    (hcounted : (countedStrips extent cell).isFinite = true) :
    (countedStrips extent cell).toUInt32.toNat = min (stripCount extent cell) (2 ^ 32 - 1) := by
  have hquotient := h.quotient_isFinite hcounted
  rw [Double.toWord_toNat hcounted]
  rcases Nat.lt_or_ge (stripCount extent cell) (2 ^ 53) with hsmall | hlarge
  · rw [(h.counted_exact hquotient hsmall).2, Nat.floor_natCast]
  · -- A count that is rounded stays above all words.
    obtain ⟨hword, hwordValue⟩ := Double.ofNatural_spec (m := 2 ^ 32) (by decide)
    have hle : (2 ^ 32 : ℕ) ≤ ⌊Double.value (countedStrips extent cell)⌋₊ := by
      apply Nat.le_floor
      rw [← hwordValue, Double.value_le_value_iff hword hcounted, ← Double.round_value hword,
        hwordValue, (h.counted_spec hquotient).2]
      exact Double.round_mono (by exact_mod_cast (by omega : 2 ^ 32 ≤ stripCount extent cell))
    omega

theorem counted_word_pos (h : Countable extent cell)
    (hcounted : (countedStrips extent cell).isFinite = true) :
    0 < (countedStrips extent cell).toUInt32 := by
  have hcount : 1 ≤ stripCount extent cell := Nat.le_add_left 1 _
  rw [UInt32.lt_iff_toNat_lt, h.counted_toNat hcounted, UInt32.toNat_zero]
  omega

end Countable

/-! ## Playfields -/

namespace Playfield

variable (field : Playfield Float)

/-- The exact number of columns. -/
def columnCount : ℕ := stripCount field.width field.cellSize

/-- The exact number of rows. -/
def rowCount : ℕ := stripCount field.height field.cellSize

/-- The number of columns as a double. -/
def countedColumns : Float := countedStrips field.width field.cellSize

/-- The number of rows as a double. -/
def countedRows : Float := countedStrips field.height field.cellSize

/-- Whether the cells have a finite positive size. -/
def HasCell : Prop :=
  field.cellSize.isFinite = true ∧ 0 < field.cellSize

/-- Whether the box lies at a finite origin and has finite extents that are not negative. -/
def HasBox : Prop :=
  (field.originX.isFinite = true ∧ field.originY.isFinite = true ∧ field.width.isFinite = true ∧
    field.height.isFinite = true) ∧ 0 ≤ field.width ∧ 0 ≤ field.height

/-- Whether the extents are finite numbers of cells and the exact number of tiles is within the
limit. -/
def HasSize : Prop :=
  ((field.width / field.cellSize).isFinite = true ∧
    (field.height / field.cellSize).isFinite = true) ∧
    field.columnCount * field.rowCount ≤ 2 ^ 22

instance : Decidable field.HasCell :=
  inferInstanceAs (Decidable (_ ∧ _))

instance : Decidable field.HasBox :=
  inferInstanceAs (Decidable (_ ∧ _))

instance : Decidable field.HasSize :=
  inferInstanceAs (Decidable (_ ∧ _))

/-- Whether a playfield can be cut into tiles. -/
structure Acceptable : Prop where
  cell : field.HasCell
  box : field.HasBox
  size : field.HasSize

/-- Whether the counts as doubles pass the test that comes before they are cut down. -/
def CountsPass : Prop :=
  (field.countedColumns.isFinite = true ∧ field.countedRows.isFinite = true) ∧
    ¬maxTiles.toFloat < field.countedColumns * field.countedRows

instance : Decidable field.CountsPass :=
  inferInstanceAs (Decidable (_ ∧ _))

variable {field}

/-- The test of the counts as doubles decides, for any doubles: the words that they are cut down
to have no larger product. -/
theorem dimensions_eq (field : Playfield Float) :
    field.dimensions =
      if field.CountsPass then
        .ok ⟨field.countedColumns.toUInt32, field.countedRows.toUInt32⟩
      else .error (.gridTooLarge field.countedColumns field.countedRows) := by
  have hdimensions : field.dimensions =
      if !(field.countedColumns.isFinite && field.countedRows.isFinite) ||
          decide (maxTiles.toFloat < field.countedColumns * field.countedRows) then
        .error (.gridTooLarge field.countedColumns field.countedRows)
      else if field.countedColumns.toUInt32.toNat * field.countedRows.toUInt32.toNat ≤
          maxTiles.toNat then
        .ok ⟨field.countedColumns.toUInt32, field.countedRows.toUInt32⟩
      else .error (.gridTooLarge field.countedColumns field.countedRows) := rfl
  rw [hdimensions]
  by_cases hpass : field.CountsPass
  · obtain ⟨⟨hcolumns, hrows⟩, hproduct⟩ := hpass
    rw [if_neg (by simp [hcolumns, hrows, hproduct]),
      if_pos (Double.toWord_mul_toWord_le hcolumns hrows hproduct),
      if_pos ⟨⟨hcolumns, hrows⟩, hproduct⟩]
  · have hrefused : (!(field.countedColumns.isFinite && field.countedRows.isFinite) ||
        decide (maxTiles.toFloat < field.countedColumns * field.countedRows)) = true := by
      by_contra hnot
      simp only [Bool.or_eq_true, Bool.not_eq_true', Bool.and_eq_false_iff, not_or,
        Bool.not_eq_false, decide_eq_true_eq] at hnot
      exact hpass hnot
    rw [if_pos hrefused, if_neg hpass]

/-! ## What is accepted -/

theorem countable_width (hcell : field.HasCell) (hbox : field.HasBox) :
    Countable field.width field.cellSize :=
  ⟨hbox.1.2.2.1, hbox.2.1, hcell.1, (Double.pos_iff hcell.1).mp hcell.2⟩

theorem countable_height (hcell : field.HasCell) (hbox : field.HasBox) :
    Countable field.height field.cellSize :=
  ⟨hbox.1.2.2.2, hbox.2.2, hcell.1, (Double.pos_iff hcell.1).mp hcell.2⟩

theorem columnCount_pos (field : Playfield Float) : 1 ≤ field.columnCount :=
  Nat.le_add_left 1 _

theorem rowCount_pos (field : Playfield Float) : 1 ≤ field.rowCount :=
  Nat.le_add_left 1 _

theorem HasSize.counts_le (h : field.HasSize) :
    field.columnCount ≤ 2 ^ 22 ∧ field.rowCount ≤ 2 ^ 22 :=
  ⟨(Nat.le_mul_of_pos_right _ field.rowCount_pos).trans h.2,
    (Nat.le_mul_of_pos_left _ field.columnCount_pos).trans h.2⟩

/-- What counting in doubles comes to where the counts and their product are not rounded. -/
structure CountedExactly (field : Playfield Float) : Prop where
  columns_finite : field.countedColumns.isFinite = true
  rows_finite : field.countedRows.isFinite = true
  columns_eq : Double.value field.countedColumns = field.columnCount
  rows_eq : Double.value field.countedRows = field.rowCount
  product_finite : (field.countedColumns * field.countedRows).isFinite = true
  product_eq : Double.value (field.countedColumns * field.countedRows) =
    (field.columnCount * field.rowCount : ℕ)

theorem countedExactly (hcell : field.HasCell) (hbox : field.HasBox) (hsize : field.HasSize) :
    field.CountedExactly := by
  obtain ⟨hcolumnsLe, hrowsLe⟩ := hsize.counts_le
  obtain ⟨⟨hwidth, hheight⟩, hproduct⟩ := hsize
  obtain ⟨hcolumns, hcolumnsEq⟩ : field.countedColumns.isFinite = true ∧
      Double.value field.countedColumns = field.columnCount :=
    (countable_width hcell hbox).counted_exact hwidth (hcolumnsLe.trans_lt (by decide))
  obtain ⟨hrows, hrowsEq⟩ : field.countedRows.isFinite = true ∧
      Double.value field.countedRows = field.rowCount :=
    (countable_height hcell hbox).counted_exact hheight (hrowsLe.trans_lt (by decide))
  obtain ⟨hnan, hrank⟩ := Double.mul_spec hcolumns hrows
  obtain ⟨hfinite, hvalue⟩ := Double.value_of_whole
    (n := (field.columnCount * field.rowCount : ℕ)) (hproduct.trans_lt (by decide)) hnan
    (by rw [hrank, hcolumnsEq, hrowsEq, Int.cast_natCast, Nat.cast_mul])
  exact ⟨hcolumns, hrows, hcolumnsEq, hrowsEq, hfinite, hvalue.trans (Int.cast_natCast _)⟩

theorem countsPass_iff (hcell : field.HasCell) (hbox : field.HasBox) :
    field.CountsPass ↔ field.HasSize := by
  obtain ⟨hlimit, hlimitValue⟩ := Double.ofWord_spec maxTiles
  have hlimitNat : maxTiles.toNat = 2 ^ 22 := rfl
  constructor
  · rintro ⟨⟨hcolumns, hrows⟩, hproduct⟩
    have hwidth := countable_width hcell hbox
    have hheight := countable_height hcell hbox
    refine ⟨⟨hwidth.quotient_isFinite hcolumns, hheight.quotient_isFinite hrows⟩, ?_⟩
    have hle := Double.toWord_mul_toWord_le hcolumns hrows hproduct
    have hcolumnsWord : field.countedColumns.toUInt32.toNat =
        min field.columnCount (2 ^ 32 - 1) := hwidth.counted_toNat hcolumns
    have hrowsWord : field.countedRows.toUInt32.toNat =
        min field.rowCount (2 ^ 32 - 1) := hheight.counted_toNat hrows
    rw [hcolumnsWord, hrowsWord, hlimitNat] at hle
    -- Both words are within the limit, so neither of them has been clamped.
    have hcolumnsPos := field.columnCount_pos
    have hrowsPos := field.rowCount_pos
    have hcolumnsLe := (Nat.le_mul_of_pos_right (min field.columnCount (2 ^ 32 - 1))
      (by omega : 0 < min field.rowCount (2 ^ 32 - 1))).trans hle
    have hrowsLe := (Nat.le_mul_of_pos_left (min field.rowCount (2 ^ 32 - 1))
      (by omega : 0 < min field.columnCount (2 ^ 32 - 1))).trans hle
    rwa [min_eq_left (by omega), min_eq_left (by omega)] at hle
  · intro hsize
    have hexact := countedExactly hcell hbox hsize
    refine ⟨⟨hexact.columns_finite, hexact.rows_finite⟩, Double.not_lt_of_le ?_⟩
    rw [Double.le_iff_value_le hexact.product_finite hlimit, hexact.product_eq, hlimitValue,
      hlimitNat]
    exact_mod_cast hsize.2

theorem validate_eq (field : Playfield Float) :
    field.validate =
      if ¬field.HasCell then .error (.invalidCellSize field.cellSize)
      else if ¬field.HasBox then .error (.invalidPlayfield field.width field.height)
      else if ¬field.HasSize then .error (.gridTooLarge field.countedColumns field.countedRows)
      else .ok () := by
  have hvalidate : field.validate =
      if !field.cellSize.isFinite || decide (field.cellSize ≤ 0) then
        .error (.invalidCellSize field.cellSize)
      else if !([field.originX, field.originY, field.width, field.height].all Float.isFinite &&
          decide (0 ≤ field.width) && decide (0 ≤ field.height)) then
        .error (.invalidPlayfield field.width field.height)
      else field.dimensions.map fun _ => () := rfl
  rw [hvalidate]
  have hcellIff : (!field.cellSize.isFinite || decide (field.cellSize ≤ 0)) = true ↔
      ¬field.HasCell := by
    rw [HasCell, Bool.or_eq_true, Bool.not_eq_true', decide_eq_true_eq]
    cases hfinite : field.cellSize.isFinite with
    | false => simp
    | true =>
        have hnan := Double.isNaN_of_isFinite hfinite
        have hle : field.cellSize ≤ 0 ↔ ¬0 < field.cellSize :=
          ⟨Double.not_lt_of_le, Double.le_of_not_lt hnan rfl⟩
        simp [hle]
  have hboxIff : (!([field.originX, field.originY, field.width, field.height].all Float.isFinite &&
      decide (0 ≤ field.width) && decide (0 ≤ field.height))) = true ↔ ¬field.HasBox := by
    simp only [HasBox, List.all_cons, List.all_nil, Bool.and_true, Bool.not_eq_true',
      ← Bool.not_eq_true, Bool.and_eq_true, decide_eq_true_eq, and_assoc]
  simp only [hcellIff, hboxIff]
  split_ifs with hcell hbox hsize
  · rw [dimensions_eq, if_pos ((countsPass_iff hcell hbox).mpr hsize)]
    rfl
  · rw [dimensions_eq, if_neg ((countsPass_iff hcell hbox).not.mpr hsize)]
    rfl
  · rfl
  · rfl

theorem validate_eq_ok_iff : field.validate = .ok () ↔ field.Acceptable := by
  rw [validate_eq]
  constructor
  · intro h
    split_ifs at h with hcell hbox hsize
    exact ⟨hcell, hbox, hsize⟩
  · intro h
    rw [if_neg (not_not.mpr h.cell), if_neg (not_not.mpr h.box), if_neg (not_not.mpr h.size)]

theorem Acceptable.exists_dimensions (h : field.Acceptable) :
    ∃ size, field.dimensions = .ok size ∧ size.columns.toNat = field.columnCount ∧
      size.rows.toNat = field.rowCount := by
  obtain ⟨hcolumnsLe, hrowsLe⟩ := h.size.counts_le
  have hexact := countedExactly h.cell h.box h.size
  have hcolumns : field.countedColumns.toUInt32.toNat = field.columnCount :=
    ((countable_width h.cell h.box).counted_toNat hexact.columns_finite).trans
      (min_eq_left (hcolumnsLe.trans (by decide)))
  have hrows : field.countedRows.toUInt32.toNat = field.rowCount :=
    ((countable_height h.cell h.box).counted_toNat hexact.rows_finite).trans
      (min_eq_left (hrowsLe.trans (by decide)))
  refine ⟨⟨field.countedColumns.toUInt32, field.countedRows.toUInt32⟩, ?_, hcolumns, hrows⟩
  rw [dimensions_eq, if_pos ((countsPass_iff h.cell h.box).mpr h.size)]

/-- A playfield is valid exactly when its cells have a finite positive size, its box is finite with
extents that are not negative, and the exact product of its counts is within the limit.  Then its
dimensions are the exact counts, neither the counts in doubles nor their product are rounded, and
a grid can be built with any walls.  For any doubles whatsoever the counts are refused by the test
that comes before they are cut down to words, or not at all. -/
theorem validate_iff_acceptable (field : Playfield Float) :
    (field.validate = .ok () ↔ field.Acceptable) ∧
      (field.Acceptable →
        (∃ size, field.dimensions = .ok size ∧ size.columns.toNat = field.columnCount ∧
          size.rows.toNat = field.rowCount) ∧
        (1 ≤ field.columnCount ∧ 1 ≤ field.rowCount) ∧ field.CountedExactly ∧
        ∀ segments, ∃ grid, Grid.build field segments = .ok grid) ∧
      field.dimensions =
        if field.CountsPass then
          .ok ⟨field.countedColumns.toUInt32, field.countedRows.toUInt32⟩
        else .error (.gridTooLarge field.countedColumns field.countedRows) := by
  refine ⟨validate_eq_ok_iff, fun h => ?_, dimensions_eq field⟩
  obtain ⟨size, hsize, hcolumns, hrows⟩ := h.exists_dimensions
  exact ⟨⟨size, hsize, hcolumns, hrows⟩, ⟨field.columnCount_pos, field.rowCount_pos⟩,
    countedExactly h.cell h.box h.size, fun segments => ⟨_, Grid.build_eq hsize segments⟩⟩

/-- A playfield with as many tiles as there may be. -/
def fullField : Playfield Float :=
  ⟨0, 0, 2047, 2047, 1⟩

theorem validate_iff_acceptable_full :
    fullField.validate = .ok () ∧
      (∃ size, fullField.dimensions = .ok size ∧ size.columns.toNat = 2048 ∧
        size.rows.toNat = 2048) ∧
      Double.value (fullField.countedColumns * fullField.countedRows) = 2 ^ 22 := by
  obtain ⟨hiff, haccepted, -⟩ := validate_iff_acceptable fullField
  have hvalid : fullField.validate = .ok () := by rfl
  have hcount : stripCount 2047 1 = 2048 := by decide +kernel
  obtain ⟨hsize, -, hexact, -⟩ := haccepted (hiff.mp hvalid)
  have hcolumns : fullField.columnCount = 2048 := hcount
  have hrows : fullField.rowCount = 2048 := hcount
  have hproduct := hexact.product_eq
  rw [hcolumns, hrows] at hsize hproduct
  exact ⟨hvalid, hsize, hproduct.trans (by norm_num)⟩

end Playfield

end Raceway
