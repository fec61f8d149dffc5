import Mathlib.Algebra.Order.Floor.Semifield
import Mathlib.Data.Int.ConditionallyCompleteOrder
import Mathlib.Data.Nat.Log
import Mathlib.Data.Rat.Floor
import Mathlib.Tactic.FieldSimp
import Mathlib.Tactic.GCongr
import Mathlib.Tactic.Linarith
/-!
# The scale of doubles

The doubles that are not negative stand on a scale: 0, the least positive double, and so on.  Up
to `2 ^ 53` the place on the scale is the number of least positive doubles.  From there on the
scale goes up in binades of `2 ^ 52` places, each with steps twice as long as the one before.
Rounding to the nearest place, with ties to the even mantissa, keeps the order of numbers.
-/

namespace Raceway.Double

/-- The nearest whole number, the even one of two. -/
def roundEven (q : ℚ) : ℕ :=
  if q < ⌊q⌋₊ + 1 / 2 then ⌊q⌋₊
  else if q = ⌊q⌋₊ + 1 / 2 then ⌊q⌋₊ + ⌊q⌋₊ % 2
  else ⌊q⌋₊ + 1

theorem floor_le_roundEven (q : ℚ) : ⌊q⌋₊ ≤ roundEven q := by
  unfold roundEven
  split_ifs <;> omega

theorem roundEven_le_floor_add_one (q : ℚ) : roundEven q ≤ ⌊q⌋₊ + 1 := by
  unfold roundEven
  split_ifs <;> omega

theorem roundEven_le_add_half {q : ℚ} (hq : 0 ≤ q) : roundEven q ≤ q + 1 / 2 := by
  have hfloor := Nat.floor_le hq
  unfold roundEven
  split_ifs with hlt heq
  · linarith
  · have hparity : ⌊q⌋₊ % 2 ≤ 1 := Nat.le_of_lt_succ (Nat.mod_lt _ two_pos)
    have : ((⌊q⌋₊ + ⌊q⌋₊ % 2 : ℕ) : ℚ) ≤ ⌊q⌋₊ + 1 := by exact_mod_cast Nat.add_le_add_left hparity _
    linarith
  · push_cast
    linarith [not_lt.mp hlt]

@[simp] theorem roundEven_natCast (n : ℕ) : roundEven n = n := by
  rw [roundEven, Nat.floor_natCast, if_pos (by linarith)]

theorem roundEven_mono : Monotone roundEven := by
  intro p q h
  rcases (Nat.floor_le_floor h).lt_or_eq with hlt | heq
  · calc roundEven p ≤ ⌊p⌋₊ + 1 := roundEven_le_floor_add_one p
      _ ≤ ⌊q⌋₊ := hlt
      _ ≤ roundEven q := floor_le_roundEven q
  · unfold roundEven
    rw [heq]
    grind

/-! ## Places -/

/-- The value of a place, in least positive doubles. -/
def units (n : ℕ) : ℕ :=
  (n - (n / 2 ^ 52 - 1) * 2 ^ 52) * 2 ^ (n / 2 ^ 52 - 1)

/-- The number of the binade of a value, counted from 0. -/
def binade (q : ℚ) : ℕ :=
  Nat.log 2 ⌊q⌋₊ - 52

/-- The place nearest to a value that is not negative. The scale has no end here. -/
def nearest (q : ℚ) : ℕ :=
  binade q * 2 ^ 52 + roundEven (q / 2 ^ binade q)

/-- Where binade `k` lies: it starts at its smallest normal number, or at zero. -/
structure InBinade (k : ℕ) (q : ℚ) : Prop where
  low : k = 0 ∨ 2 ^ (52 + k) ≤ q
  high : q < 2 ^ (53 + k)

theorem inBinade_binade {q : ℚ} (hq : 0 ≤ q) : InBinade (binade q) q := by
  constructor
  · by_cases hzero : binade q = 0
    · exact Or.inl hzero
    · right
      have hlog : 52 + binade q = Nat.log 2 ⌊q⌋₊ := by
        unfold binade at hzero ⊢
        omega
      have hfloor : ⌊q⌋₊ ≠ 0 := by
        intro h
        rw [binade, h] at hzero
        exact hzero rfl
      calc (2 : ℚ) ^ (52 + binade q) = ((2 ^ Nat.log 2 ⌊q⌋₊ : ℕ) : ℚ) := by
            rw [hlog]; norm_cast
        _ ≤ (⌊q⌋₊ : ℚ) := by exact_mod_cast Nat.pow_log_le_self 2 hfloor
        _ ≤ q := Nat.floor_le hq
  · have hlog : Nat.log 2 ⌊q⌋₊ + 1 ≤ 53 + binade q := by
      unfold binade
      omega
    have hfloor : ⌊q⌋₊ + 1 ≤ 2 ^ (53 + binade q) :=
      (Nat.lt_pow_succ_log_self (by decide) _).trans_le (Nat.pow_le_pow_right (by decide) hlog)
    calc q < ⌊q⌋₊ + 1 := Nat.lt_floor_add_one q
      _ ≤ (2 : ℚ) ^ (53 + binade q) := by exact_mod_cast hfloor

theorem InBinade.eq_binade {k : ℕ} {q : ℚ} (h : InBinade k q) : k = binade q := by
  have hhigh : ⌊q⌋₊ < 2 ^ (53 + k) := by
    rw [Nat.floor_lt' (by positivity)]
    exact_mod_cast h.high
  rcases h.low with rfl | hlow
  · have hlog : Nat.log 2 ⌊q⌋₊ < 53 := Nat.log_lt_of_lt_pow' (by decide) hhigh
    unfold binade
    omega
  · have hfloor : 2 ^ (52 + k) ≤ ⌊q⌋₊ := Nat.le_floor (by exact_mod_cast hlow)
    have hlog : Nat.log 2 ⌊q⌋₊ = 52 + k := by
      rw [Nat.log_eq_iff (Or.inl (by omega))]
      exact ⟨hfloor, by rwa [show 52 + k + 1 = 53 + k by omega]⟩
    unfold binade
    omega

theorem nearest_eq {k : ℕ} {q : ℚ} (h : InBinade k q) :
    nearest q = k * 2 ^ 52 + roundEven (q / 2 ^ k) := by
  rw [nearest, ← h.eq_binade]

theorem InBinade.roundEven_le {k : ℕ} {q : ℚ} (h : InBinade k q) :
    roundEven (q / 2 ^ k) ≤ 2 ^ 53 := by
  have hle : q / 2 ^ k ≤ ((2 ^ 53 : ℕ) : ℚ) := by
    rw [div_le_iff₀ (by positivity)]
    calc q ≤ 2 ^ (53 + k) := h.high.le
      _ = ((2 ^ 53 : ℕ) : ℚ) * 2 ^ k := by rw [pow_add]; norm_num
  calc roundEven (q / 2 ^ k) ≤ roundEven ((2 ^ 53 : ℕ) : ℚ) := roundEven_mono hle
    _ = 2 ^ 53 := roundEven_natCast _

theorem InBinade.le_roundEven {k : ℕ} {q : ℚ} (h : InBinade k q) (hk : 0 < k) :
    2 ^ 52 ≤ roundEven (q / 2 ^ k) := by
  have hle : ((2 ^ 52 : ℕ) : ℚ) ≤ q / 2 ^ k := by
    rw [le_div_iff₀ (by positivity)]
    calc ((2 ^ 52 : ℕ) : ℚ) * 2 ^ k = 2 ^ (52 + k) := by rw [pow_add]; norm_num
      _ ≤ q := h.low.resolve_left hk.ne'
  calc 2 ^ 52 = roundEven ((2 ^ 52 : ℕ) : ℚ) := (roundEven_natCast _).symm
    _ ≤ roundEven (q / 2 ^ k) := roundEven_mono hle

theorem binade_mono : Monotone binade := by
  intro p q h
  exact Nat.sub_le_sub_right (Nat.log_mono_right (Nat.floor_le_floor h)) 52

/-- Rounding keeps the order. A number that is rounded up beyond its binade lands on the first
place of the next one. -/
theorem nearest_le_nearest {p q : ℚ} (hp : 0 ≤ p) (h : p ≤ q) : nearest p ≤ nearest q := by
  rcases (binade_mono h).lt_or_eq with hlt | heq
  · have hbinade := inBinade_binade (hp.trans h)
    calc nearest p ≤ binade p * 2 ^ 52 + 2 ^ 53 :=
          Nat.add_le_add_left (inBinade_binade hp).roundEven_le _
      _ = (binade p + 1) * 2 ^ 52 + 2 ^ 52 := by ring
      _ ≤ binade q * 2 ^ 52 + roundEven (q / 2 ^ binade q) :=
          Nat.add_le_add (Nat.mul_le_mul_right _ hlt) (hbinade.le_roundEven (by omega))
  · unfold nearest
    rw [heq]
    gcongr
    exact roundEven_mono (by gcongr)

theorem units_place {k m : ℕ} (hm : m < 2 ^ 53) (hk : k = 0 ∨ 2 ^ 52 ≤ m) :
    units (k * 2 ^ 52 + m) = m * 2 ^ k := by
  have hbinade : (k * 2 ^ 52 + m) / 2 ^ 52 - 1 = k := by omega
  rw [units, hbinade, Nat.add_sub_cancel_left]

theorem exists_place (n : ℕ) :
    ∃ k m, n = k * 2 ^ 52 + m ∧ m < 2 ^ 53 ∧ (k = 0 ∨ 2 ^ 52 ≤ m) :=
  ⟨n / 2 ^ 52 - 1, n - (n / 2 ^ 52 - 1) * 2 ^ 52, by omega, by omega, by omega⟩

theorem inBinade_place {k m : ℕ} (hm : m < 2 ^ 53) (hk : k = 0 ∨ 2 ^ 52 ≤ m) :
    InBinade k (m * 2 ^ k : ℚ) := by
  constructor
  · refine hk.imp_right fun hm => ?_
    rw [pow_add]
    gcongr
    exact_mod_cast hm
  · rw [pow_add]
    gcongr
    exact_mod_cast hm

@[simp] theorem nearest_units (n : ℕ) : nearest (units n) = n := by
  obtain ⟨k, m, rfl, hm, hk⟩ := exists_place n
  rw [units_place hm hk, Nat.cast_mul, Nat.cast_pow, Nat.cast_ofNat,
    nearest_eq (inBinade_place hm hk), mul_div_cancel_right₀ _ (by positivity),
    roundEven_natCast]

@[simp] theorem nearest_zero : nearest 0 = 0 := by
  simpa [units] using nearest_units 0

/-- A rounded mantissa stands for its value, also when it is the first of the next binade. -/
theorem units_of_le {k m : ℕ} (hm : m ≤ 2 ^ 53) (hk : k = 0 ∨ 2 ^ 52 ≤ m) :
    units (k * 2 ^ 52 + m) = m * 2 ^ k := by
  rcases hm.lt_or_eq with hlt | rfl
  · exact units_place hlt hk
  · have hcarry : k * 2 ^ 52 + 2 ^ 53 = (k + 1) * 2 ^ 52 + 2 ^ 52 := by ring
    rw [hcarry, units_place (by decide) (Or.inr le_rfl)]
    ring

theorem units_nearest_le {q : ℚ} (hq : 0 ≤ q) (h : (∃ n : ℕ, q = n) ∨ 2 ^ 52 ≤ q) :
    (units (nearest q) : ℚ) ≤ q * (1 + 1 / 2 ^ 53) := by
  have hbinade := inBinade_binade hq
  set k := binade q
  have hround := roundEven_le_add_half (q := q / 2 ^ k) (by positivity)
  have hmantissa : k = 0 ∨ 2 ^ 52 ≤ roundEven (q / 2 ^ k) :=
    k.eq_zero_or_pos.imp_right hbinade.le_roundEven
  have hunits : (units (nearest q) : ℚ) = roundEven (q / 2 ^ k) * 2 ^ k := by
    rw [nearest_eq hbinade, units_of_le hbinade.roundEven_le hmantissa]
    push_cast
    rfl
  have hstep : (roundEven (q / 2 ^ k) : ℚ) * 2 ^ k ≤ q + 2 ^ k / 2 := by
    calc (roundEven (q / 2 ^ k) : ℚ) * 2 ^ k ≤ (q / 2 ^ k + 1 / 2) * 2 ^ k := by gcongr
      _ = q + 2 ^ k / 2 := by field_simp
  rw [hunits]
  by_cases hnormal : 2 ^ (52 + k) ≤ q
  · rw [pow_add] at hnormal
    linarith
  · obtain hk : k = 0 := hbinade.low.resolve_right hnormal
    rw [hk, Nat.add_zero] at hnormal
    obtain ⟨n, rfl⟩ := h.resolve_right hnormal
    rw [hk, pow_zero, div_one, roundEven_natCast, mul_one]
    exact le_mul_of_one_le_right (Nat.cast_nonneg _) (by norm_num)
/-! ## Negative numbers -/

/-- The place nearest to a value, below zero for a negative one. -/
def signedNearest (q : ℚ) : ℤ :=
  if 0 ≤ q then nearest q else -nearest (-q)

theorem signedNearest_of_nonneg {q : ℚ} (hq : 0 ≤ q) : signedNearest q = nearest q :=
  if_pos hq

@[simp] theorem signedNearest_neg (q : ℚ) : signedNearest (-q) = -signedNearest q := by
  unfold signedNearest
  rcases lt_trichotomy q 0 with hneg | rfl | hpos
  · rw [if_pos (by linarith), if_neg (by linarith), neg_neg]
  · simp [nearest_zero]
  · rw [if_neg (by linarith), if_pos hpos.le, neg_neg]

theorem signedNearest_mono : Monotone signedNearest := by
  intro p q h
  unfold signedNearest
  split_ifs with hp hq hq
  · exact_mod_cast nearest_le_nearest hp h
  · exact absurd (hp.trans h) hq
  · exact (neg_nonpos.mpr (Int.natCast_nonneg _)).trans (Int.natCast_nonneg _)
  · apply neg_le_neg
    exact_mod_cast nearest_le_nearest (by linarith) (neg_le_neg h)

/-- The value of a place, negative for one below zero. -/
def signedUnits (r : ℤ) : ℤ :=
  r.sign * units r.natAbs

@[simp] theorem units_zero : units 0 = 0 :=
  rfl

@[simp] theorem signedUnits_natCast (n : ℕ) : signedUnits n = units n := by
  rw [signedUnits, Int.natAbs_natCast]
  rcases n.eq_zero_or_pos with rfl | hpos
  · rfl
  · rw [Int.sign_eq_one_of_pos (by exact_mod_cast hpos), one_mul]

@[simp] theorem signedUnits_neg (r : ℤ) : signedUnits (-r) = -signedUnits r := by
  rw [signedUnits, Int.sign_neg, Int.natAbs_neg, neg_mul, signedUnits]

@[simp] theorem signedNearest_signedUnits (r : ℤ) : signedNearest (signedUnits r) = r := by
  have hnat (n : ℕ) : signedNearest (units n) = n := by
    rw [signedNearest_of_nonneg (Nat.cast_nonneg _), nearest_units]
  rcases r.eq_nat_or_neg with ⟨n, rfl | rfl⟩
  · simpa using hnat n
  · simp [hnat]

theorem signedUnits_mono : Monotone signedUnits := by
  intro r s h
  by_contra! hlt
  -- Rounding gets the ranks back from the values, and it keeps the order of values.
  have hle : signedNearest (signedUnits s) ≤ signedNearest (signedUnits r) :=
    signedNearest_mono (by exact_mod_cast hlt.le)
  rw [signedNearest_signedUnits, signedNearest_signedUnits] at hle
  rw [le_antisymm h hle] at hlt
  exact lt_irrefl _ hlt

end Raceway.Double
