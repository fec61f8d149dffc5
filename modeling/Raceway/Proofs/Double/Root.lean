import Raceway.Proofs.Double.Finite
/-!
# Roots of doubles

The root of a finite double that is not negative is rounded from a number whose square is at most
four times as large as the double.  So it is finite, and only infinity has an infinite root.
-/

namespace Raceway.Double

open Float.Model (Format UnpackedFloat totalExponent)
open Float.Model.UnpackedFloat

/-! ## By parts -/

/-- Whatever is known about the rest, a mantissa stands for some number. -/
theorem exists_represents (m : ℕ) (acc : Accuracy) :
    ∃ q : ℚ, Represents (.ofMantissaAndAccuracy m acc) q := by
  rcases acc with _ | order
  · exact ⟨m, represents_exact m⟩
  · cases order with
    | lt =>
        refine ⟨m + 1 / 4, ?_⟩
        show (m : ℚ) < m + 1 / 4 ∧ (m : ℚ) + 1 / 4 < m + 1 / 2
        constructor <;> linarith
    | eq => exact ⟨m + 1 / 2, rfl⟩
    | gt =>
        refine ⟨m + 3 / 4, ?_⟩
        show (m : ℚ) + 1 / 2 < m + 3 / 4 ∧ (m : ℚ) + 3 / 4 < m + 1
        constructor <;> linarith

theorem sqrt_exponent_le {m : ℕ} {e t : ℤ} (hm : 0 < m)
    (ht : t = min (e.ediv 2)
      (Format.binary64.targetExponent ((totalExponent m e + 1).ediv 2))) :
    t ≤ Format.binary64.targetExponent
      (totalExponent (m * 2 ^ (e - 2 * t).toNat).sqrt t) := by
  have htarget : Format.binary64.targetExponent ((totalExponent m e + 1).ediv 2) =
      max ((m.log2 + 1 + e + 1) / 2 - 53) (-1074) := rfl
  have hhalf : e.ediv 2 = e / 2 := rfl
  rw [htarget, hhalf] at ht
  rw [targetExponent_eq]
  rcases lt_or_ge (-1074) t with hlt | hge
  · have hlog : 104 ≤ m.log2 + (e - 2 * t).toNat := by omega
    have hroot : 2 ^ 52 ≤ (m * 2 ^ (e - 2 * t).toNat).sqrt := by
      rw [Nat.le_sqrt]
      calc 2 ^ 52 * 2 ^ 52 ≤ 2 ^ (m.log2 + (e - 2 * t).toNat) :=
            Nat.pow_le_pow_right two_pos hlog
        _ = 2 ^ m.log2 * 2 ^ (e - 2 * t).toNat := pow_add _ _ _
        _ ≤ m * 2 ^ (e - 2 * t).toNat := Nat.mul_le_mul_right _ (Nat.log2_self_le hm.ne')
    have h52 : 52 ≤ (m * 2 ^ (e - 2 * t).toNat).sqrt.log2 := (Nat.le_log2 (by omega)).mpr hroot
    omega
  · omega

theorem exists_sqrt_finite {m : ℕ} {e t : ℤ} (hm : 0 < m)
    (ht : t = min (e.ediv 2)
      (Format.binary64.targetExponent ((totalExponent m e + 1).ediv 2))) :
    ∃ acc, UnpackedFloat.sqrt Format.binary64 (.finite .positive m e hm) =
      roundWithAccuracy Format.binary64 .positive (m * 2 ^ (e - 2 * t).toNat).sqrt t acc := by
  rw [← Nat.shiftLeft_eq, ht]
  exact ⟨_, rfl⟩

/-- A number below the next mantissa is at most twice the mantissa. -/
theorem square_le_of_sqrt {n : ℕ} {q : ℚ} (hn : 0 < n) (hq : 0 ≤ q) (hlt : q < n.sqrt + 1) :
    q * q ≤ 4 * n := by
  have hroot : 1 ≤ n.sqrt := Nat.sqrt_pos.mpr hn
  have hle : q ≤ 2 * n.sqrt := by
    have : (1 : ℚ) ≤ n.sqrt := by exact_mod_cast hroot
    linarith
  calc q * q ≤ 2 * n.sqrt * (2 * n.sqrt) := mul_self_le_mul_self hq hle
    _ = 4 * (n.sqrt * n.sqrt : ℕ) := by push_cast; ring
    _ ≤ 4 * n := by
        have : ((n.sqrt * n.sqrt : ℕ) : ℚ) ≤ n := by exact_mod_cast n.sqrt_le
        linarith

theorem valueOf_even_exponent {m : ℕ} {e t : ℤ} (hm : 0 < m) (ht : 2 * t ≤ e) :
    valueOf (.finite .positive m e hm) = (m * 2 ^ (e - 2 * t).toNat : ℕ) * (2 ^ t * 2 ^ t) := by
  have hexponent : ((e - 2 * t).toNat : ℤ) + (t + t) = e := by omega
  rw [valueOf, Sign.apply, Int.cast_natCast, Nat.cast_mul, Nat.cast_pow, Nat.cast_ofNat, mul_assoc,
    ← zpow_natCast, ← zpow_add₀ two_ne_zero, ← zpow_add₀ two_ne_zero, hexponent]

theorem rounds_sqrt {f : UnpackedFloat} (hfinite : f.isFinite = true) (hnonneg : 0 ≤ valueOf f) :
    ∃ q, Rounds (UnpackedFloat.sqrt Format.binary64 f) q ∧ 0 ≤ q ∧ q * q ≤ 4 * valueOf f := by
  cases f with
  | notANumber => cases hfinite
  | infinity => cases hfinite
  | zero sign =>
      have hzero : valueOf (.zero sign) = 0 := rfl
      exact ⟨0, Rounds.zero sign, le_rfl, by rw [hzero, mul_zero, mul_zero]⟩
  | finite sign m e hm =>
      have hmpos : (0 : ℚ) < m := by exact_mod_cast hm
      cases sign with
      | negative =>
          have hneg : valueOf (.finite .negative m e hm) = -(m * 2 ^ e) := by
            rw [valueOf, Sign.apply, Int.cast_neg, Int.cast_natCast, neg_mul]
          rw [hneg] at hnonneg
          have := mul_pos hmpos (zpow_pos two_pos e)
          linarith
      | positive =>
          obtain ⟨t, ht⟩ : ∃ t, t = min (e.ediv 2)
            (Format.binary64.targetExponent ((totalExponent m e + 1).ediv 2)) := ⟨_, rfl⟩
          obtain ⟨acc, hsqrt⟩ := exists_sqrt_finite hm ht
          obtain ⟨q, hq⟩ := exists_represents (m * 2 ^ (e - 2 * t).toNat).sqrt acc
          obtain ⟨hlow, hhigh⟩ := hq.bounds
          rw [mantissa_ofMantissaAndAccuracy] at hlow hhigh
          have hq0 : 0 ≤ q := (Nat.cast_nonneg _).trans hlow
          have hsquare := square_le_of_sqrt (Nat.mul_pos hm (by positivity)) hq0 hhigh
          have hround := rounds_roundWithAccuracy .positive hq (sqrt_exponent_le hm ht)
          rw [← hsqrt, Sign.apply, Int.cast_one, one_mul] at hround
          refine ⟨q * 2 ^ t, hround, mul_nonneg hq0 (zpow_pos two_pos t).le, ?_⟩
          have heven : 2 * t ≤ e := by
            have hhalf : e.ediv 2 = e / 2 := rfl
            omega
          calc q * 2 ^ t * (q * 2 ^ t) = q * q * (2 ^ t * 2 ^ t) := by ring
            _ ≤ 4 * (m * 2 ^ (e - 2 * t).toNat : ℕ) * (2 ^ t * 2 ^ t) :=
                mul_le_mul_of_nonneg_right hsquare (by positivity)
            _ = 4 * valueOf (.finite .positive m e hm) := by
                rw [valueOf_even_exponent hm heven, mul_assoc]

/-! ## Results -/

variable {x : Float}

theorem unpack_sqrt (x : Float) : x.sqrt.toModel.unpack = unpack Format.binary64
    (pack Format.binary64 (.sqrt Format.binary64 x.toModel.unpack)) :=
  rfl

theorem isFinite_sqrt (hx : 0 ≤ x) : x.sqrt.isFinite = x.isFinite := by
  cases hfinite : x.isFinite with
  | true =>
      obtain ⟨q, hround, hq, hsquare⟩ := rounds_sqrt hfinite
        ((value_nonneg_iff hfinite).mpr (nonneg_iff.mp hx).2)
      obtain ⟨hnan, hrank⟩ : x.sqrt.isNaN = false ∧ rank x.sqrt = round q := of_rounds hround
      have hlow : 0 ≤ round q := round_zero ▸ round_mono hq
      have htop := top_pos
      -- The root of a large number is smaller than the number.
      have hhigh : round q < top := by
        rcases le_total 4 q with hlarge | hsmall
        · have hle : q ≤ value x := by
            have : 4 * q ≤ q * q := mul_le_mul_of_nonneg_right hlarge hq
            rw [value]
            linarith
          calc round q ≤ rank x := round_value hfinite ▸ round_mono hle
            _ < top := (rank_bounds_of_isFinite hfinite).2
        · exact (round_mono hsmall).trans_lt (round_natCast_lt (n := 4) (by decide))
      exact isFinite_of_rank hnan (by omega) (by omega)
  | false =>
      rw [isFinite_eq, unpack_sqrt, unpack_of_nonneg hx hfinite]
      rfl

end Raceway.Double
