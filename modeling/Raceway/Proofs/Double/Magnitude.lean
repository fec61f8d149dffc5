import Raceway.Proofs.Double.Finite
/-!
# Magnitudes of doubles

Powers of two are doubles, so a result that is not larger than a power of two before it is rounded
is not larger afterwards.  This bounds sums, differences and products by the exponents of what they
are made of, and it keeps them finite.
-/

namespace Raceway.Double

variable {m n : ℕ} {x y u : Float}

/-- Whether a double is finite and not larger than a power of two. -/
structure Within (n : ℕ) (x : Float) : Prop where
  finite : x.isFinite = true
  abs_le : |value x| ≤ 2 ^ n

theorem two_pow_mul_scale (n : ℕ) :
    (2 ^ n : ℚ) * scale = units ((n + 1022) * 2 ^ 52 + 2 ^ 52) := by
  have hexponent : 52 + (n + 1022) = n + 1074 := by omega
  rw [units_place (by norm_num) (Or.inr le_rfl), ← pow_add, hexponent, scale, Nat.cast_pow,
    Nat.cast_ofNat, pow_add]
  rfl

theorem round_two_pow (hn : n ≤ 1023) :
    round (2 ^ n) < top ∧ (2 ^ n : ℚ) * scale = signedUnits (round (2 ^ n)) := by
  have htop : (top : ℤ) = 2047 * 2 ^ 52 := rfl
  have hround : round (2 ^ n) = ((n + 1022) * 2 ^ 52 + 2 ^ 52 : ℕ) := by
    rw [round, two_pow_mul_scale, signedNearest_of_nonneg (Nat.cast_nonneg _), nearest_units,
      clamp_of_bounds (by omega) (by omega)]
  rw [hround, signedUnits_natCast, Int.cast_natCast]
  exact ⟨by omega, two_pow_mul_scale n⟩

@[simp] theorem round_neg_eq (q : ℚ) : round (-q) = -round q := by
  rw [round, round, neg_mul, signedNearest_neg, clamp, clamp]
  omega

theorem within_of_round {q : ℚ} (hn : n ≤ 1023) (hx : x.isNaN = false) (hrank : rank x = round q)
    (hq : |q| ≤ 2 ^ n) : Within n x := by
  obtain ⟨htop, hplace⟩ := round_two_pow hn
  obtain ⟨hlow, hhigh⟩ := abs_le.mp hq
  have hle : rank x ≤ round (2 ^ n) := hrank ▸ round_mono hhigh
  have hge : -round (2 ^ n) ≤ rank x := by
    rw [hrank, ← round_neg_eq]
    exact round_mono hlow
  have hfinite : x.isFinite = true := isFinite_of_rank hx (by omega) (by omega)
  refine ⟨hfinite, abs_le.mpr ⟨?_, ?_⟩⟩
  · rw [← mul_le_mul_iff_of_pos_right scale_pos, neg_mul, hplace, value_mul_scale hfinite,
      ← Int.cast_neg, ← signedUnits_neg]
    exact_mod_cast signedUnits_mono hge
  · rw [← mul_le_mul_iff_of_pos_right scale_pos, hplace, value_mul_scale hfinite]
    exact_mod_cast signedUnits_mono hle

namespace Within

theorem mono (h : Within m x) (hmn : m ≤ n) : Within n x :=
  ⟨h.finite, h.abs_le.trans (pow_le_pow_right₀ one_le_two hmn)⟩

theorem add (hx : Within n x) (hy : Within n y) (hn : n < 1023) : Within (n + 1) (x + y) := by
  obtain ⟨hnan, hrank⟩ := add_spec hx.finite hy.finite
  refine within_of_round hn hnan hrank ?_
  calc |value x + value y| ≤ |value x| + |value y| := abs_add_le _ _
    _ ≤ 2 ^ n + 2 ^ n := add_le_add hx.abs_le hy.abs_le
    _ = 2 ^ (n + 1) := by rw [pow_succ, mul_two]

theorem sub (hx : Within n x) (hy : Within n y) (hn : n < 1023) : Within (n + 1) (x - y) := by
  obtain ⟨hnan, hrank⟩ := sub_spec hx.finite hy.finite
  refine within_of_round hn hnan hrank ?_
  calc |value x - value y| ≤ |value x| + |value y| := abs_sub _ _
    _ ≤ 2 ^ n + 2 ^ n := add_le_add hx.abs_le hy.abs_le
    _ = 2 ^ (n + 1) := by rw [pow_succ, mul_two]

theorem mul (hx : Within m x) (hy : Within n y) (hmn : m + n ≤ 1023) :
    Within (m + n) (x * y) := by
  obtain ⟨hnan, hrank⟩ := mul_spec hx.finite hy.finite
  refine within_of_round hmn hnan hrank ?_
  rw [abs_mul, pow_add]
  exact mul_le_mul hx.abs_le hy.abs_le (abs_nonneg _) (by positivity)

theorem of_unit (h0 : 0 ≤ u) (h1 : u ≤ 1) : Within 0 u := by
  obtain ⟨hu0, hu1⟩ := value_of_unit h0 h1
  exact ⟨isFinite_of_unit h0 h1, by rwa [pow_zero, abs_of_nonneg hu0]⟩

end Within

end Raceway.Double
