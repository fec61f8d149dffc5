import Raceway.Proofs.Grid.Seams
/-!
# Looking up a tile

A point is looked up by the number of whole cells between the origin and the point, but a tile is
laid out by going a number of cells from the origin.  Over doubles the two are rounded apart, so a
point near a border may be looked up in a tile that it does not lie in.  The doubles next to the
borders tell whether that happens.
-/

namespace Raceway

/-! ## Strips of one axis -/

/-- The number of whole cells between the origin and a coordinate. -/
def strip (origin cell x : Float) : Float :=
  Double.floor ((x - origin) / cell)

/-- Whether a coordinate is looked up in the strip with a number. -/
def LookedUp (origin cell : Float) (count : UInt32) (x : Float) (k : UInt32) : Prop :=
  ¬strip origin cell x < 0 ∧ ¬count.toFloat ≤ strip origin cell x ∧
    (strip origin cell x).toUInt32 = k

/-- Whether every coordinate lies in the strip that it is looked up in. -/
def Keeps (origin cell : Float) (count : UInt32) : Prop :=
  ∀ x k, x.isFinite = true → LookedUp origin cell count x k →
    nearBorder origin cell k ≤ x ∧ x ≤ farBorder origin cell k

/-- Whether the doubles next to every strip are looked up before it and behind it. -/
structure Aligned (origin cell : Float) (count : UInt32) : Prop where
  near : ∀ k < count, strip origin cell (Double.before (nearBorder origin cell k)) < k.toFloat
  far : ∀ k < count, k.toFloat < strip origin cell (Double.after (farBorder origin cell k))

instance (origin cell : Float) (count : UInt32) : Decidable (Aligned origin cell count) :=
  decidable_of_iff (∀ n ∈ List.range count.toNat,
      strip origin cell (Double.before (nearBorder origin cell (.ofNat n))) <
        (UInt32.ofNat n).toFloat ∧
      (UInt32.ofNat n).toFloat <
        strip origin cell (Double.after (farBorder origin cell (.ofNat n)))) <| by
    constructor
    · intro h
      have hword (k : UInt32) (hk : k < count) := h k.toNat
        (List.mem_range.mpr (UInt32.lt_iff_toNat_lt.mp hk))
      simp only [UInt32.ofNat_toNat] at hword
      exact ⟨fun k hk => (hword k hk).1, fun k hk => (hword k hk).2⟩
    · intro h n hn
      have hlt := List.mem_range.mp hn
      have hword : UInt32.ofNat n < count := by
        rwa [UInt32.lt_iff_toNat_lt, UInt32.toNat_ofNat_of_lt' (hlt.trans count.toNat_lt)]
      exact ⟨h.near _ hword, h.far _ hword⟩

/-- An origin and a cell size that strips can be laid out with. -/
structure Axis (origin cell : Float) : Prop where
  origin_finite : origin.isFinite = true
  cell_finite : cell.isFinite = true
  cell_pos : 0 < Double.value cell

section

variable {origin cell x y : Float} {count j k : UInt32}

namespace Axis

theorem nearBorder_le (h : Axis origin cell) (hjk : j ≤ k) :
    nearBorder origin cell j ≤ nearBorder origin cell k :=
  nearBorder_mono h.origin_finite h.cell_finite h.cell_pos.le hjk

theorem farBorder_le (h : Axis origin cell) (hjk : j ≤ k) :
    farBorder origin cell j ≤ farBorder origin cell k :=
  farBorder_mono h.origin_finite h.cell_finite h.cell_pos.le hjk

theorem rank_origin_le (h : Axis origin cell) (k : UInt32) :
    Double.rank origin ≤ Double.rank (nearBorder origin cell k) :=
  (nearBorder_zero h.origin_finite h.cell_finite).2.ge.trans
    (Double.rank_le_rank (h.nearBorder_le UInt32.zero_le))

theorem quotient_isNaN (h : Axis origin cell) (hx : x.isNaN = false) :
    ((x - origin) / cell).isNaN = false :=
  (Double.le_iff.mp (Double.quotient_mono h.cell_finite h.cell_pos
    (Double.difference_mono h.origin_finite (Double.le_refl hx)))).1

theorem strip_mono (h : Axis origin cell) (hle : x ≤ y) :
    strip origin cell x ≤ strip origin cell y :=
  Double.floor_mono (Double.quotient_mono h.cell_finite h.cell_pos
    (Double.difference_mono h.origin_finite hle))

theorem strip_isNaN (h : Axis origin cell) (hx : x.isNaN = false) :
    (strip origin cell x).isNaN = false :=
  (Double.le_iff.mp (h.strip_mono (Double.le_refl hx))).1

theorem rank_strip_of_infinite (h : Axis origin cell) (hx : x.isNaN = false)
    (hinfinite : x.isFinite = false) : Double.rank (strip origin cell x) = Double.rank x := by
  have hstays {y : Float} (hy : Double.rank y = Double.rank x) : y.isFinite = false := by
    rw [← Bool.not_eq_true] at hinfinite ⊢
    exact fun hfinite => hinfinite (Double.isFinite_of_rank_eq hx hfinite hy.symm)
  obtain ⟨hdifference, hrank⟩ := Double.sub_infinite h.origin_finite hx hinfinite
  obtain ⟨hquotient, hrank'⟩ :=
    Double.div_infinite h.cell_finite h.cell_pos hdifference (hstays hrank)
  rw [strip, Double.floor_infinite hquotient (hstays (hrank'.trans hrank)), hrank', hrank]

theorem isFinite_of_strip (h : Axis origin cell) (hx : x.isNaN = false)
    (hfinite : (strip origin cell x).isFinite = true) : x.isFinite = true := by
  by_contra hinfinite
  have hrank := h.rank_strip_of_infinite hx (Bool.eq_false_iff.mpr hinfinite)
  exact hinfinite (Double.isFinite_of_rank_eq hx hfinite hrank.symm)

theorem exists_whole (h : Axis origin cell) (hx : x.isNaN = false)
    (hfinite : (strip origin cell x).isFinite = true)
    (hlow : 0 ≤ Double.rank (strip origin cell x)) :
    ∃ n : ℕ, Double.value (strip origin cell x) = n := by
  have hquotient := Double.isFinite_of_floor (h.quotient_isNaN hx) hfinite
  have hvalue : Double.value (strip origin cell x) = ⌊Double.value ((x - origin) / cell)⌋ :=
    (Double.floor_spec hquotient).2
  rw [← Double.value_nonneg_iff hfinite, hvalue, Int.cast_nonneg_iff] at hlow
  obtain ⟨n, hn⟩ := Int.eq_ofNat_of_zero_le hlow
  exact ⟨n, by rw [hvalue, hn, Int.cast_natCast]⟩

theorem lookedUp_iff (h : Axis origin cell) (hx : x.isNaN = false) :
    LookedUp origin cell count x k ↔
      k < count ∧ Double.rank (strip origin cell x) = Double.rank k.toFloat := by
  obtain ⟨hcount, hcountValue⟩ := Double.ofWord_spec count
  obtain ⟨hk, hkValue⟩ := Double.ofWord_spec k
  have hs := h.strip_isNaN hx
  have hrankZero : Double.rank 0 = 0 := rfl
  have hzero : (0 : Float).isNaN = false := rfl
  constructor
  · rintro ⟨hlow, hhigh, hword⟩
    have hlow := Double.rank_le_rank (Double.le_of_not_lt hzero hs hlow)
    have hhigh := Double.rank_lt_rank
      (Double.lt_of_not_le (Double.isNaN_of_isFinite hcount) hs hhigh)
    have hcountBounds := Double.rank_bounds_of_isFinite hcount
    have hfinite := Double.isFinite_of_rank hs (by omega) (by omega)
    obtain ⟨n, hn⟩ := h.exists_whole hx hfinite hlow
    rw [← Double.value_lt_value_iff hfinite hcount, hn, hcountValue, Nat.cast_lt] at hhigh
    have hkn : k.toNat = n := by
      rw [← hword, Double.toWord_of_value hfinite hn]
      exact UInt32.toNat_ofNatClamp_of_lt (hhigh.trans count.toNat_lt)
    refine ⟨UInt32.lt_iff_toNat_lt.mpr (hkn ▸ hhigh), ?_⟩
    rw [← Double.value_eq_iff hfinite hk, hn, hkValue, hkn]
  · rintro ⟨hlt, hrank⟩
    have hfinite := Double.isFinite_of_rank_eq hs hk hrank
    have hvalue : Double.value (strip origin cell x) = k.toNat := by
      rw [← hkValue, Double.value_eq_iff hfinite hk, hrank]
    refine ⟨Double.not_lt_of_le (Double.le_iff.mpr ⟨hzero, hs, ?_⟩), fun hle => ?_, ?_⟩
    · rw [hrankZero, ← Double.value_nonneg_iff hfinite, hvalue]
      exact Nat.cast_nonneg _
    · have hle := Double.rank_le_rank hle
      rw [← Double.value_le_value_iff hcount hfinite, hvalue, hcountValue, Nat.cast_le] at hle
      exact absurd hle (not_le.mpr (UInt32.lt_iff_toNat_lt.mp hlt))
    · rw [Double.toWord_of_value hfinite hvalue, ← UInt32.toNat_inj]
      exact UInt32.toNat_ofNatClamp_of_lt k.toNat_lt

end Axis

theorem Aligned.keeps (h : Aligned origin cell count) (haxis : Axis origin cell) :
    Keeps origin cell count := by
  intro x k hfinite hk
  have hx := Double.isNaN_of_isFinite hfinite
  obtain ⟨hcount, hrank⟩ := (haxis.lookedUp_iff hx).mp hk
  obtain ⟨hnear, -, -⟩ := Double.le_iff.mp (haxis.nearBorder_le (UInt32.le_refl k))
  obtain ⟨hfar, -, -⟩ := Double.le_iff.mp (haxis.farBorder_le (UInt32.le_refl k))
  constructor
  · refine Double.le_of_not_lt hnear hx fun hlt => ?_
    have hle := Double.rank_le_rank (haxis.strip_mono (Double.le_before hlt))
    have hbefore := Double.rank_lt_rank (h.near k hcount)
    omega
  · refine Double.le_of_not_lt hx hfar fun hlt => ?_
    have hle := Double.rank_le_rank (haxis.strip_mono (Double.after_le hlt))
    have hafter := Double.rank_lt_rank (h.far k hcount)
    omega

/-! ## Next to a border -/

theorem Axis.value_product (h : Axis origin cell)
    (hproduct : (k.toFloat * cell).isFinite = true) :
    0 ≤ Double.value (k.toFloat * cell) ∧
      Double.value (k.toFloat * cell) ≤ k.toNat * Double.value cell * (1 + 1 / 2 ^ 53) ∧
      (0 < k.toNat → Double.value cell ≤ Double.value (k.toFloat * cell)) := by
  obtain ⟨hk, hkValue⟩ := Double.ofWord_spec k
  have hc := h.cell_pos
  have hrank : Double.rank (k.toFloat * cell) = Double.round (k.toNat * Double.value cell) := by
    rw [(Double.mul_spec hk h.cell_finite).2, hkValue]
  have hexact : 0 ≤ (k.toNat : ℚ) * Double.value cell := mul_nonneg (Nat.cast_nonneg _) hc.le
  refine ⟨?_, ?_, fun hpos => ?_⟩
  · rw [Double.value_nonneg_iff hproduct, hrank, ← Double.round_zero]
    exact Double.round_mono hexact
  · exact Double.value_le_of_rank hproduct hrank hexact
      (Or.inl (Double.exists_units_mul h.cell_finite hc.le _))
  · rw [Double.value_le_value_iff h.cell_finite hproduct, hrank,
      ← Double.round_value h.cell_finite]
    exact Double.round_mono (le_mul_of_one_le_left hc.le (by exact_mod_cast hpos))

/-- A product with a word comes back to its strip when it is divided again, although both results
are rounded. -/
theorem Axis.value_quotient_lt (h : Axis origin cell)
    (hproduct : (k.toFloat * cell).isFinite = true) :
    (k.toFloat * cell / cell).isFinite = true ∧
      Double.value (k.toFloat * cell / cell) < k.toNat + 1 := by
  obtain ⟨hlower, hupper, hcell⟩ := h.value_product hproduct
  have hc := h.cell_pos
  have hword : (k.toNat : ℚ) < 2 ^ 32 := by exact_mod_cast k.toNat_lt
  obtain ⟨hnan, hrank⟩ := Double.div_spec hproduct h.cell_finite hc.ne'
  obtain ⟨q, hq⟩ : ∃ q, q = Double.value (k.toFloat * cell) / Double.value cell := ⟨_, rfl⟩
  rw [← hq] at hrank
  have hnonneg : 0 ≤ q := hq ▸ div_nonneg hlower hc.le
  have hle : q ≤ k.toNat * (1 + 1 / 2 ^ 53) := by
    rw [hq, div_le_iff₀ hc]
    linarith
  have hfinite : (k.toFloat * cell / cell).isFinite = true := by
    have htop := Double.round_natCast_lt (n := k.toNat + 1) (by have := k.toNat_lt; omega)
    have hpos := Double.top_pos
    have hlow : Double.round 0 ≤ Double.round q := Double.round_mono hnonneg
    have hhigh : Double.round q ≤ Double.round (k.toNat + 1 : ℕ) := by
      apply Double.round_mono
      push_cast
      linarith
    rw [Double.round_zero] at hlow
    exact Double.isFinite_of_rank hnan (by omega) (by omega)
  have hlarge : (∃ n : ℕ, q * Double.scale = n) ∨ 1 ≤ q := by
    rcases Nat.eq_zero_or_pos k.toNat with hzero | hpos
    · rw [hzero, Nat.cast_zero, zero_mul] at hle
      exact Or.inl ⟨0, by rw [le_antisymm hle hnonneg, zero_mul, Nat.cast_zero]⟩
    · exact Or.inr (hq ▸ (one_le_div hc).mpr (hcell hpos))
  refine ⟨hfinite, ?_⟩
  calc Double.value (k.toFloat * cell / cell) ≤ q * (1 + 1 / 2 ^ 53) :=
        Double.value_le_of_rank hfinite hrank hnonneg hlarge
    _ < k.toNat + 1 := by linarith

theorem Axis.strip_before_le (h : Axis origin cell)
    (hnear : (nearBorder origin cell k).isFinite = true) :
    strip origin cell (Double.before (nearBorder origin cell k)) ≤ k.toFloat := by
  obtain ⟨hk, hkValue⟩ := Double.ofWord_spec k
  have hkBounds := Double.rank_bounds_of_isFinite hk
  have hnearBounds := Double.rank_bounds_of_isFinite hnear
  have hknan := Double.isNaN_of_isFinite hk
  obtain ⟨hb, -, hlt⟩ := Double.lt_iff.mp (Double.before_lt hnear)
  set b := Double.before (nearBorder origin cell k)
  cases hfinite : b.isFinite with
  | false =>
      have hrank := h.rank_strip_of_infinite hb hfinite
      refine Double.le_iff.mpr ⟨h.strip_isNaN hb, hknan, ?_⟩
      rcases Double.rank_of_infinite hb hfinite with hinf | hinf <;> omega
  | true =>
      have hproduct : (k.toFloat * cell).isFinite = true := (Double.isFinite_of_add hnear).2
      have hnearRank : Double.rank (nearBorder origin cell k) =
          Double.round (Double.value origin + Double.value (k.toFloat * cell)) :=
        (Double.add_spec h.origin_finite hproduct).2
      -- Rounding keeps the order, so the double before the border is less than the exact sum.
      have hvalue : Double.value b - Double.value origin ≤ Double.value (k.toFloat * cell) := by
        by_contra! hlarge
        have hround := Double.round_mono (lt_sub_iff_add_lt'.mp hlarge).le
        rw [Double.round_value hfinite] at hround
        omega
      obtain ⟨hdifference, hdifferenceRank⟩ := Double.sub_spec hfinite h.origin_finite
      have hle : b - origin ≤ k.toFloat * cell := by
        refine Double.le_iff.mpr ⟨hdifference, Double.isNaN_of_isFinite hproduct, ?_⟩
        rw [hdifferenceRank, ← Double.round_value hproduct]
        exact Double.round_mono hvalue
      obtain ⟨hquotient, hquotientLt⟩ := h.value_quotient_lt hproduct
      obtain ⟨hfloor, hfloorValue⟩ := Double.floor_spec hquotient
      have hfloorLe : Double.floor (k.toFloat * cell / cell) ≤ k.toFloat := by
        refine Double.le_iff.mpr ⟨Double.isNaN_of_isFinite hfloor, hknan, ?_⟩
        rw [← Double.value_le_value_iff hfloor hk, hfloorValue, hkValue]
        have hlt : ⌊Double.value (k.toFloat * cell / cell)⌋ < (k.toNat : ℤ) + 1 :=
          Int.floor_lt.mpr (by exact_mod_cast hquotientLt)
        exact_mod_cast Int.lt_add_one_iff.mp hlt
      exact Double.le_trans
        (Double.floor_mono (Double.quotient_mono h.cell_finite h.cell_pos hle)) hfloorLe

theorem Axis.strip_origin (h : Axis origin cell) :
    Double.rank (strip origin cell origin) = 0 := by
  have htop := Double.top_pos
  have hdifference := Double.rank_sub_self h.origin_finite
  have hfinite := Double.isFinite_of_rank
    (Double.sub_spec h.origin_finite h.origin_finite).1 (by omega) (by omega)
  obtain ⟨hnan, hquotient⟩ := Double.div_spec hfinite h.cell_finite h.cell_pos.ne'
  rw [Double.value_eq_zero hfinite hdifference, zero_div, Double.round_zero] at hquotient
  have hquotientFinite := Double.isFinite_of_rank hnan (by omega) (by omega)
  obtain ⟨hfloor, hvalue⟩ := Double.floor_spec hquotientFinite
  rw [Double.value_eq_zero hquotientFinite hquotient, Int.floor_zero, Int.cast_zero] at hvalue
  rw [strip, ← Double.round_value hfloor, hvalue, Double.round_zero]

theorem Axis.rank_strip_nonneg (h : Axis origin cell) (hle : origin ≤ x) :
    0 ≤ Double.rank (strip origin cell x) :=
  h.strip_origin.ge.trans (Double.rank_le_rank (h.strip_mono hle))

theorem Axis.lookedUp_origin (h : Axis origin cell) (hcount : 0 < count) :
    LookedUp origin cell count origin 0 :=
  (h.lookedUp_iff (Double.isNaN_of_isFinite h.origin_finite)).mpr ⟨hcount, h.strip_origin⟩

theorem Axis.exists_lookedUp (h : Axis origin cell) (hx : x.isFinite = true) (hle : origin ≤ x)
    (hk : k < count) (hstrip : strip origin cell x ≤ k.toFloat) :
    ∃ j ≤ k, LookedUp origin cell count x j := by
  obtain ⟨hkFinite, hkValue⟩ := Double.ofWord_spec k
  have hkBounds := Double.rank_bounds_of_isFinite hkFinite
  have hxnan := Double.isNaN_of_isFinite hx
  have hlow := h.rank_strip_nonneg hle
  have hhigh := Double.rank_le_rank hstrip
  have htop := Double.top_pos
  have hfinite := Double.isFinite_of_rank (h.strip_isNaN hxnan) (by omega) (by omega)
  obtain ⟨n, hn⟩ := h.exists_whole hxnan hfinite hlow
  rw [← Double.value_le_value_iff hfinite hkFinite, hn, hkValue, Nat.cast_le] at hhigh
  have hword : (UInt32.ofNat n).toNat = n :=
    UInt32.toNat_ofNat_of_lt' (hhigh.trans_lt k.toNat_lt)
  obtain ⟨hj, hjValue⟩ := Double.ofWord_spec (UInt32.ofNat n)
  have hjk : UInt32.ofNat n ≤ k := by rwa [UInt32.le_iff_toNat_le, hword]
  refine ⟨_, hjk, (h.lookedUp_iff hxnan).mpr ⟨UInt32.lt_of_le_of_lt hjk hk, ?_⟩⟩
  rw [← Double.value_eq_iff hfinite hj, hn, hjValue, hword]

/-! ## Borders -/

theorem Axis.nearBorder_isFinite (h : Axis origin cell)
    (hlast : (nearBorder origin cell (count - 1)).isFinite = true) (hk : k < count) :
    (nearBorder origin cell k).isFinite = true := by
  have hkLast : k ≤ count - 1 := by
    rw [UInt32.lt_iff_toNat_lt] at hk
    rw [UInt32.le_iff_toNat_le, UInt32.toNat_sub_of_le]
    · simp only [UInt32.toNat_one]
      omega
    · rw [UInt32.le_iff_toNat_le, UInt32.toNat_one]
      omega
  obtain ⟨hnear, -, hhigh⟩ := Double.le_iff.mp (h.nearBorder_le hkLast)
  have hlow := h.rank_origin_le k
  have horigin := Double.rank_bounds_of_isFinite h.origin_finite
  have hbounds := Double.rank_bounds_of_isFinite hlast
  exact Double.isFinite_of_rank hnear (by omega) (by omega)

theorem Axis.nearBorder_le_farBorder (h : Axis origin cell)
    (hnear : (nearBorder origin cell k).isFinite = true) :
    nearBorder origin cell k ≤ farBorder origin cell k := by
  obtain ⟨hfar, hrank⟩ := Double.add_spec hnear h.cell_finite
  refine Double.le_iff.mpr ⟨Double.isNaN_of_isFinite hnear, hfar, ?_⟩
  rw [farBorder, hrank, ← Double.round_value hnear]
  exact Double.round_mono (le_add_of_nonneg_right h.cell_pos.le)

theorem Keeps.strip_before_lt (hkeeps : Keeps origin cell count) (h : Axis origin cell)
    (hnear : (nearBorder origin cell k).isFinite = true) (hk : k < count) :
    strip origin cell (Double.before (nearBorder origin cell k)) < k.toFloat := by
  have hkFinite := (Double.ofWord_spec k).1
  have hlt := Double.before_lt hnear
  obtain ⟨hb, -, -⟩ := Double.lt_iff.mp hlt
  obtain ⟨hs, hknan, hle⟩ := Double.le_iff.mp (h.strip_before_le hnear)
  refine Double.lt_iff.mpr ⟨hs, hknan, lt_of_le_of_ne hle fun heq => ?_⟩
  have hfinite := h.isFinite_of_strip hb (Double.isFinite_of_rank_eq hs hkFinite heq)
  have hcontains := hkeeps _ k hfinite ((h.lookedUp_iff hb).mpr ⟨hk, heq⟩)
  exact Double.not_lt_of_le hcontains.1 hlt

theorem Keeps.lt_strip_after (hkeeps : Keeps origin cell count) (h : Axis origin cell)
    (hnear : (nearBorder origin cell k).isFinite = true) (hk : k < count) :
    k.toFloat < strip origin cell (Double.after (farBorder origin cell k)) := by
  have hkFinite := (Double.ofWord_spec k).1
  have hkBounds := Double.rank_bounds_of_isFinite hkFinite
  have hnearBounds := Double.rank_bounds_of_isFinite hnear
  have hnearFar := Double.rank_le_rank (h.nearBorder_le_farBorder hnear)
  obtain ⟨ha, hrank⟩ := Double.after_spec (farBorder origin cell k)
  have hs := h.strip_isNaN ha
  by_contra hlt
  have hle := Double.le_of_not_lt hs (Double.isNaN_of_isFinite hkFinite) hlt
  have hleRank := Double.rank_le_rank hle
  have horigin : origin ≤ Double.after (farBorder origin cell k) := by
    have hlow := h.rank_origin_le k
    have hbounds := Double.rank_bounds origin
    exact Double.le_iff.mpr ⟨Double.isNaN_of_isFinite h.origin_finite, ha, by omega⟩
  have hlow := h.rank_strip_nonneg horigin
  have htop := Double.top_pos
  have hfinite := h.isFinite_of_strip ha (Double.isFinite_of_rank hs (by omega) (by omega))
  have haBounds := Double.rank_bounds_of_isFinite hfinite
  obtain ⟨j, hjk, hj⟩ := h.exists_lookedUp hfinite horigin hk hle
  have hfarJ := Double.rank_le_rank (hkeeps _ j hfinite hj).2
  have hfarK := Double.rank_le_rank (h.farBorder_le hjk)
  omega

/-- Whether every coordinate lies in its strip can be told from the doubles next to the strips. -/
theorem Axis.keeps_iff_aligned (h : Axis origin cell)
    (hlast : (nearBorder origin cell (count - 1)).isFinite = true) :
    Keeps origin cell count ↔ Aligned origin cell count := by
  constructor
  · intro hkeeps
    exact {
      near := fun k hk => hkeeps.strip_before_lt h (h.nearBorder_isFinite hlast hk) hk
      far := fun k hk => hkeeps.lt_strip_after h (h.nearBorder_isFinite hlast hk) hk }
  · exact fun haligned => haligned.keeps h

end

/-! ## Tiles -/

theorem Grid.cellOf?_eq_some_iff {grid : Grid Float} {p : Point Float} {cell : Cell} :
    grid.cellOf? p = some cell ↔ (p.isFinite = true ∧ grid.tiles.isEmpty = false) ∧
      LookedUp grid.originX grid.cellSize grid.columns p.x cell.column ∧
      LookedUp grid.originY grid.cellSize grid.rows p.y cell.row := by
  have hlookup : grid.cellOf? p = if !p.isFinite || grid.tiles.isEmpty then none
      else if decide (strip grid.originX grid.cellSize p.x < 0) ||
          decide (strip grid.originY grid.cellSize p.y < 0) ||
          decide (grid.columns.toFloat ≤ strip grid.originX grid.cellSize p.x) ||
          decide (grid.rows.toFloat ≤ strip grid.originY grid.cellSize p.y) then none
      else some ⟨(strip grid.originX grid.cellSize p.x).toUInt32,
        (strip grid.originY grid.cellSize p.y).toUInt32⟩ := rfl
  obtain ⟨column, row⟩ := cell
  rw [hlookup, LookedUp, LookedUp]
  split_ifs with hnone hout
  · simp only [false_iff]
    rintro ⟨⟨hfinite, htiles⟩, -⟩
    rw [hfinite, htiles] at hnone
    cases hnone
  · simp only [Bool.or_eq_true, decide_eq_true_eq] at hout
    simp only [false_iff]
    tauto
  · simp only [Bool.or_eq_true, Bool.not_eq_true', not_or, Bool.not_eq_false,
      Bool.not_eq_true] at hnone
    simp only [Bool.or_eq_true, decide_eq_true_eq, not_or] at hout
    obtain ⟨⟨⟨hx0, hy0⟩, hx1⟩, hy1⟩ := hout
    simp only [Option.some_inj, Cell.mk.injEq]
    exact ⟨fun h => ⟨hnone, ⟨hx0, hx1, h.1⟩, hy0, hy1, h.2⟩, fun h => ⟨h.2.1.2.2, h.2.2.2.2⟩⟩

namespace Rect

theorem contains_of_beq {r : Rect Float} {p q : Point Float} (hp : r.contains p = true)
    (h : (q == p) = true) : r.contains q = true := by
  have heq {x y z : Float} (h : (y == x) = true) :
      (z ≤ x → z ≤ y) ∧ (x ≤ z → y ≤ z) := by
    obtain ⟨hy, -, hrank⟩ := Double.beq_iff.mp h
    constructor
    · intro hle
      obtain ⟨hz, -, hle⟩ := Double.le_iff.mp hle
      exact Double.le_iff.mpr ⟨hz, hy, hle.trans hrank.ge⟩
    · intro hle
      obtain ⟨-, hz, hle⟩ := Double.le_iff.mp hle
      exact Double.le_iff.mpr ⟨hy, hz, hrank.le.trans hle⟩
  obtain ⟨hx, hy⟩ : (q.x == p.x) = true ∧ (q.y == p.y) = true := Bool.and_eq_true_iff.mp h
  obtain ⟨⟨hleft, hright⟩, htop, hbottom⟩ := contains_iff_le.mp hp
  exact contains_iff_le.mpr ⟨⟨(heq hx).1 hleft, (heq hx).2 hright⟩, (heq hy).1 htop,
    (heq hy).2 hbottom⟩

end Rect

namespace Playfield

/-- Whether every point lies in the tile that it is looked up in, so that the tile lists every wall
with an end at the point, whatever walls there are. -/
def FindsTiles (field : Playfield Float) : Prop :=
  ∀ segments : List (Segment Float), segments.length ≤ 2 ^ 32 →
    ∀ grid, Grid.build field segments = .ok grid → ∀ p i, grid.tileOf? p = some i →
      ∃ tile, grid.tiles[i]? = some tile ∧ tile.rect.contains p = true ∧
        ∀ j s, segments[j]? = some s → (s.a == p || s.b == p) = true →
          j ∈ tile.walls.map Wall.index

variable {field : Playfield Float} {size : Dimensions}

theorem Regular.axisX (h : field.Regular) : Axis field.originX field.cellSize :=
  ⟨h.originX_finite, h.cell_finite, h.cell_pos⟩

theorem Regular.axisY (h : field.Regular) : Axis field.originY field.cellSize :=
  ⟨h.originY_finite, h.cell_finite, h.cell_pos⟩

theorem Regular.size_pos (h : field.Regular) (hsize : field.dimensions = .ok size) :
    0 < size.columns ∧ 0 < size.rows := by
  rw [dimensions_eq] at hsize
  split_ifs at hsize with hpass
  obtain rfl := Except.ok.inj hsize
  have hwidth : Countable field.width field.cellSize :=
    ⟨h.width_finite, h.width_nonneg, h.cell_finite, h.cell_pos⟩
  have hheight : Countable field.height field.cellSize :=
    ⟨h.height_finite, h.height_nonneg, h.cell_finite, h.cell_pos⟩
  exact ⟨hwidth.counted_word_pos hpass.1.1, hheight.counted_word_pos hpass.1.2⟩

theorem FindsTiles.contains (h : field.FindsTiles) (hfield : field.Regular)
    (hsize : field.dimensions = .ok size) {p : Point Float} (hp : p.isFinite = true) (cell : Cell)
    (hx : LookedUp field.originX field.cellSize size.columns p.x cell.column)
    (hy : LookedUp field.originY field.cellSize size.rows p.y cell.row) :
    (Tile.square field cell).contains p = true := by
  obtain ⟨hxfinite, hyfinite⟩ := Bool.and_eq_true_iff.mp hp
  have hcolumn := ((hfield.axisX.lookedUp_iff (Double.isNaN_of_isFinite hxfinite)).mp hx).1
  have hrow := ((hfield.axisY.lookedUp_iff (Double.isNaN_of_isFinite hyfinite)).mp hy).1
  have htile := Grid.ofDimensions_getElem?_place field size [] cell hcolumn hrow
  have htiles : (Grid.ofDimensions field size []).tiles.isEmpty = false := by
    have hmem := Array.mem_of_getElem? htile
    by_contra hempty
    rw [Bool.not_eq_false, Array.isEmpty_iff] at hempty
    rw [hempty] at hmem
    exact Array.not_mem_empty _ hmem
  have hcell : (Grid.ofDimensions field size []).cellOf? p = some cell :=
    Grid.cellOf?_eq_some_iff.mpr ⟨⟨hp, htiles⟩, hx, hy⟩
  have hplace : (Grid.ofDimensions field size []).tileOf? p =
      some (cell.row.toNat * size.columns.toNat + cell.column.toNat) := by
    rw [Grid.tileOf?, hcell, Option.map_some, Grid.place_toNat hsize hcolumn hrow]
  obtain ⟨tile, hfound, hcontains, -⟩ :=
    h [] (Nat.zero_le _) _ (Grid.build_eq hsize []) p _ hplace
  rw [htile, Option.some_inj] at hfound
  rw [← hfound] at hcontains
  exact hcontains

theorem Regular.findsTiles_iff_keeps (hfield : field.Regular)
    (hsize : field.dimensions = .ok size) :
    field.FindsTiles ↔ Keeps field.originX field.cellSize size.columns ∧
      Keeps field.originY field.cellSize size.rows := by
  obtain ⟨hcolumns, hrows⟩ := hfield.size_pos hsize
  constructor
  · intro h
    constructor
    · intro x k hx hk
      have hp : (⟨x, field.originY⟩ : Point Float).isFinite = true :=
        Bool.and_eq_true_iff.mpr ⟨hx, hfield.originY_finite⟩
      have hcontains := h.contains hfield hsize hp ⟨k, 0⟩ hk (hfield.axisY.lookedUp_origin hrows)
      exact (contains_square_iff.mp hcontains).1
    · intro y k hy hk
      have hp : (⟨field.originX, y⟩ : Point Float).isFinite = true :=
        Bool.and_eq_true_iff.mpr ⟨hfield.originX_finite, hy⟩
      have hcontains := h.contains hfield hsize hp ⟨0, k⟩
        (hfield.axisX.lookedUp_origin hcolumns) hk
      exact (contains_square_iff.mp hcontains).2
  · rintro ⟨hkeepsX, hkeepsY⟩ segments hlen grid hgrid p i hplace
    rw [Grid.build_eq hsize, Except.ok.injEq] at hgrid
    subst hgrid
    obtain ⟨cell, hcell, rfl⟩ := Option.map_eq_some_iff.mp hplace
    obtain ⟨⟨hp, -⟩, hx, hy⟩ := Grid.cellOf?_eq_some_iff.mp hcell
    obtain ⟨hxfinite, hyfinite⟩ := Bool.and_eq_true_iff.mp hp
    have hcolumn := ((hfield.axisX.lookedUp_iff (Double.isNaN_of_isFinite hxfinite)).mp hx).1
    have hrow := ((hfield.axisY.lookedUp_iff (Double.isNaN_of_isFinite hyfinite)).mp hy).1
    have hcontains : (Tile.square field cell).contains p = true := contains_square_iff.mpr
      ⟨hkeepsX _ _ hxfinite hx, hkeepsY _ _ hyfinite hy⟩
    have htile := Grid.ofDimensions_getElem?_place field size segments cell hcolumn hrow
    rw [Grid.place_toNat hsize hcolumn hrow]
    refine ⟨_, htile, hcontains, fun j s hs hend => ?_⟩
    have htouch : (Tile.square field cell).touches s = true := Rect.touches_of_contains
      ((Bool.or_eq_true_iff.mp hend).imp (Rect.contains_of_beq hcontains)
        (Rect.contains_of_beq hcontains))
    exact Grid.mem_indices_of_touches field size segments hlen (Array.mem_of_getElem? htile) hs
      htouch

/-- In a playfield whose last tile begins at a finite point, every point lies in the tile that it
is looked up in exactly when the doubles next to each column and each row are looked up outside. -/
theorem findsTiles_iff_aligned {field : Playfield Float} {size : Dimensions}
    (hvalid : field.validate = .ok ()) (hsize : field.dimensions = .ok size)
    (hlast : (Tile.square field ⟨size.columns - 1, size.rows - 1⟩).min.isFinite = true) :
    field.FindsTiles ↔ Aligned field.originX field.cellSize size.columns ∧
      Aligned field.originY field.cellSize size.rows := by
  have hfield := regular_of_validate hvalid
  obtain ⟨hlastX, hlastY⟩ := Bool.and_eq_true_iff.mp hlast
  rw [hfield.findsTiles_iff_keeps hsize, hfield.axisX.keeps_iff_aligned hlastX,
    hfield.axisY.keeps_iff_aligned hlastY]

theorem findsTiles_iff_aligned_units :
    (⟨0, 0, 1, 1, 1⟩ : Playfield Float).validate = .ok () ∧
      (⟨0, 0, 1, 1, 1⟩ : Playfield Float).dimensions = .ok ⟨2, 2⟩ ∧
      (Tile.square (⟨0, 0, 1, 1, 1⟩ : Playfield Float) ⟨1, 1⟩).min.isFinite = true ∧
      (⟨0, 0, 1, 1, 1⟩ : Playfield Float).FindsTiles := by
  have hvalid : (⟨0, 0, 1, 1, 1⟩ : Playfield Float).validate = .ok () := by rfl
  have hsize : (⟨0, 0, 1, 1, 1⟩ : Playfield Float).dimensions = .ok ⟨2, 2⟩ := by rfl
  have hlast : (Tile.square (⟨0, 0, 1, 1, 1⟩ : Playfield Float) ⟨1, 1⟩).min.isFinite = true := by
    rfl
  have haligned : Aligned 0 1 2 := by decide +kernel
  exact ⟨hvalid, hsize, hlast,
    (findsTiles_iff_aligned hvalid hsize hlast).mpr ⟨haligned, haligned⟩⟩

example : ¬Aligned 0 18.8 4 := by decide +kernel

/-- Cells of 18.8 from 0 on. The third column ends at 56.400000000000006, but 56.4 divided by the
cell size is 3. -/
def wideCells : Playfield Float :=
  ⟨0, 0, 60, 10, 18.8⟩

/-- A point of the third column that is looked up in the fourth one, where no wall is listed that
ends at the point. -/
theorem wideCells_lookUp_next :
    wideCells.validate = .ok () ∧
      ∃ grid, Grid.build wideCells [⟨⟨50, 5⟩, ⟨56.4, 5⟩⟩] = .ok grid ∧
        grid.tileOf? ⟨56.4, 5⟩ = some 3 ∧
        ∃ tile, grid.tiles[3]? = some tile ∧ tile.rect.contains ⟨56.4, 5⟩ = false ∧
          tile.walls = [] := by
  have hsize : wideCells.dimensions = .ok ⟨4, 1⟩ := by rfl
  have hplace : (Grid.ofDimensions wideCells ⟨4, 1⟩ [⟨⟨50, 5⟩, ⟨56.4, 5⟩⟩]).tileOf? ⟨56.4, 5⟩ =
      some 3 := by decide +kernel
  have htile := Grid.ofDimensions_getElem?_place wideCells ⟨4, 1⟩ [⟨⟨50, 5⟩, ⟨56.4, 5⟩⟩] ⟨3, 0⟩
    (by decide) (by decide)
  have hout : (Tile.square wideCells ⟨3, 0⟩).contains ⟨56.4, 5⟩ = false := by decide +kernel
  have hempty : (Tile.ofCell wideCells (Wall.number [⟨⟨50, 5⟩, ⟨56.4, 5⟩⟩])
      ⟨3, 0⟩).walls.isEmpty = true := by decide +kernel
  exact ⟨by rfl, _, Grid.build_eq hsize _, hplace, _, htile, hout, List.isEmpty_iff.mp hempty⟩

end Playfield

end Raceway
