import Raceway.Proofs.Double.Order
/-!
# Quotients of doubles

A quotient of finite doubles is the exact one, rounded once.  Subtraction of a finite double and
division by a positive one keep the order of all doubles that are numbers, infinities included.
-/

namespace Raceway.Double

open Float.Model (Format UnpackedFloat totalExponent)
open Float.Model.UnpackedFloat

/-! ## By parts -/

/-- The whole part of a fraction, with what its remainder says about the rest. -/
theorem represents_fraction (n : ℕ) {d : ℕ} (hd : 0 < d) :
    Represents (.ofMantissaAndAccuracy (n / d) (accuracyOfFraction (n % d) d)) (n / d : ℚ) := by
  have hpos : (0 : ℚ) < d := by exact_mod_cast hd
  have hsum : (n : ℚ) = d * (n / d : ℕ) + (n % d : ℕ) := by
    exact_mod_cast (Nat.div_add_mod n d).symm
  have hfraction : (n : ℚ) / d = (n / d : ℕ) + (n % d : ℕ) / (d : ℚ) := by
    rw [div_eq_iff hpos.ne', add_mul, div_mul_cancel₀ _ hpos.ne', mul_comm, ← hsum]
  have hrest : ((n % d : ℕ) : ℚ) / d < 1 :=
    (div_lt_one hpos).mpr (by exact_mod_cast Nat.mod_lt n hd)
  have htwice : 2 * (((n % d : ℕ) : ℚ) / d) = (2 * (n % d) : ℕ) / d := by
    rw [Nat.cast_mul, Nat.cast_ofNat, mul_div_assoc]
  rw [hfraction, accuracyOfFraction]
  split_ifs with hzero
  · rw [hzero, Nat.cast_zero, zero_div, add_zero]
    exact represents_exact _
  · have hrestpos : 0 < ((n % d : ℕ) : ℚ) / d :=
      div_pos (by exact_mod_cast Nat.pos_of_ne_zero hzero) hpos
    rcases lt_trichotomy (2 * (n % d)) d with hlt | heq | hgt
    · have hhalf : ((2 * (n % d) : ℕ) : ℚ) / d < 1 :=
        (div_lt_one hpos).mpr (by exact_mod_cast hlt)
      rw [compare_lt_iff_lt.mpr hlt]
      exact ⟨lt_add_of_pos_right _ hrestpos, add_lt_add_right (by linarith) _⟩
    · have hhalf : ((2 * (n % d) : ℕ) : ℚ) / d = 1 := by rw [heq, div_self hpos.ne']
      rw [compare_eq_iff_eq.mpr heq]
      exact congrArg _ (by linarith)
    · have hhalf : 1 < ((2 * (n % d) : ℕ) : ℚ) / d :=
        (one_lt_div hpos).mpr (by exact_mod_cast hgt)
      rw [compare_gt_iff_gt.mpr hgt]
      exact ⟨add_lt_add_right (by linarith) _, add_lt_add_right hrest _⟩

/-- The exponent of a quotient leaves it a mantissa of 53 bits or more, unless it is the least. -/
theorem div_exponent_le {m n : ℕ} {e d t : ℤ} (hm : 0 < m) (hn : 0 < n)
    (ht : t = min (e - d)
      (Format.binary64.targetExponent (totalExponent m e - totalExponent n d))) :
    t ≤ Format.binary64.targetExponent
      (totalExponent (m * 2 ^ (e - d - t).toNat / n) t) := by
  have htarget : Format.binary64.targetExponent (totalExponent m e - totalExponent n d) =
      max (m.log2 + 1 + e - (n.log2 + 1 + d) - 53) (-1074) := rfl
  rw [htarget] at ht
  rw [targetExponent_eq]
  rcases lt_or_ge (-1074) t with hlt | hge
  · have hlog : n.log2 + 53 ≤ m.log2 + (e - d - t).toNat := by omega
    have hquotient : 2 ^ 52 ≤ m * 2 ^ (e - d - t).toNat / n := by
      rw [Nat.le_div_iff_mul_le hn]
      calc 2 ^ 52 * n ≤ 2 ^ 52 * 2 ^ (n.log2 + 1) :=
            Nat.mul_le_mul_left _ Nat.lt_log2_self.le
        _ = 2 ^ (n.log2 + 53) := by rw [← pow_add]; congr 1; omega
        _ ≤ 2 ^ (m.log2 + (e - d - t).toNat) := Nat.pow_le_pow_right two_pos hlog
        _ = 2 ^ m.log2 * 2 ^ (e - d - t).toNat := pow_add _ _ _
        _ ≤ m * 2 ^ (e - d - t).toNat := Nat.mul_le_mul_right _ (Nat.log2_self_le hm.ne')
    have h52 : 52 ≤ (m * 2 ^ (e - d - t).toNat / n).log2 :=
      (Nat.le_log2 (by omega)).mpr hquotient
    omega
  · omega

theorem div_finite {s t : Sign} {m n : ℕ} {e d x : ℤ} (hm : 0 < m) (hn : 0 < n)
    (hx : x = min (e - d)
      (Format.binary64.targetExponent (totalExponent m e - totalExponent n d))) :
    UnpackedFloat.div Format.binary64 (.finite s m e hm) (.finite t n d hn) =
      roundWithAccuracy Format.binary64 (s / t) (m * 2 ^ (e - d - x).toNat / n) x
        (accuracyOfFraction (m * 2 ^ (e - d - x).toNat % n) n) := by
  rw [← Nat.shiftLeft_eq, hx]
  rfl

theorem value_div_finite (s t : Sign) {m n : ℕ} {e d x : ℤ} (hm : 0 < m) (hn : 0 < n)
    (hx : x ≤ e - d) :
    valueOf (.finite s m e hm) / valueOf (.finite t n d hn) =
      ((s / t).apply 1 : ℤ) * (((m * 2 ^ (e - d - x).toNat : ℕ) : ℚ) / n * 2 ^ x) := by
  have hsign : (((s / t).apply 1 : ℤ) : ℚ) = (s.apply 1 : ℤ) / (t.apply 1 : ℤ) := by
    cases s <;> cases t <;> norm_num [Sign.apply] <;> rfl
  have hpow : (2 : ℚ) ^ e / 2 ^ d = 2 ^ (e - d - x).toNat * 2 ^ x := by
    rw [← zpow_sub₀ two_ne_zero, ← zpow_natCast, ← zpow_add₀ two_ne_zero,
      Int.toNat_of_nonneg (sub_nonneg.mpr hx), sub_add_cancel]
  rw [valueOf, valueOf, hsign, apply_eq s, apply_eq t]
  push_cast
  rw [mul_div_mul_comm, hpow]
  ring

theorem rounds_div {f g : UnpackedFloat} (hffinite : f.isFinite = true)
    (hgfinite : g.isFinite = true) (hg : valueOf g ≠ 0) :
    Rounds (UnpackedFloat.div Format.binary64 f g) (valueOf f / valueOf g) := by
  cases g with
  | notANumber => cases hgfinite
  | infinity => cases hgfinite
  | zero t => exact absurd rfl hg
  | finite t n d hn =>
      cases f with
      | notANumber => cases hffinite
      | infinity => cases hffinite
      | zero s =>
          have hzero : valueOf (.zero s) = 0 := rfl
          rw [hzero, zero_div]
          exact Rounds.zero _
      | finite s m e hm =>
          obtain ⟨x, hx⟩ : ∃ x, x = min (e - d)
            (Format.binary64.targetExponent (totalExponent m e - totalExponent n d)) := ⟨_, rfl⟩
          rw [div_finite hm hn hx, value_div_finite s t hm hn (hx.trans_le (min_le_left _ _))]
          exact rounds_roundWithAccuracy _ (represents_fraction _ hn) (div_exponent_le hm hn hx)

/-! ## Results -/

variable {x y c : Float}

theorem div_spec (hx : x.isFinite = true) (hc : c.isFinite = true) (hne : value c ≠ 0) :
    (x / c).isNaN = false ∧ rank (x / c) = round (value x / value c) :=
  of_rounds (rounds_div hx hc hne)

theorem div_infinite (hc : c.isFinite = true) (hpos : 0 < value c) (hx : x.isNaN = false)
    (hinfinite : x.isFinite = false) : (x / c).isNaN = false ∧ rank (x / c) = rank x := by
  obtain ⟨sign, hsign⟩ := eq_infinity hx hinfinite
  have hdiv : UnpackedFloat.div Format.binary64 x.toModel.unpack c.toModel.unpack =
      .infinity sign := by
    rw [value] at hpos
    rw [isFinite_eq] at hc
    rw [hsign]
    cases hunpack : c.toModel.unpack with
    | notANumber => rw [hunpack] at hc; cases hc
    | infinity => rw [hunpack] at hc; cases hc
    | zero => rw [hunpack] at hpos; exact absurd hpos (lt_irrefl 0)
    | finite t n d hn =>
        cases t with
        | positive => cases sign <;> rfl
        | negative =>
            rw [hunpack] at hpos
            have hneg : valueOf (.finite .negative n d hn) ≤ 0 :=
              mul_nonpos_of_nonpos_of_nonneg (by simp [Sign.apply]) (zpow_pos two_pos d).le
            exact absurd hpos hneg.not_gt
  have hquotient : (x / c).toModel.unpack = .infinity sign := by
    rw [unpack_div, hdiv, unpack_pack_infinity]
  refine ⟨?_, (rank_infinity hquotient).trans (rank_infinity hsign).symm⟩
  rw [isNaN_eq, hquotient]
  rfl

theorem sub_infinite (hc : c.isFinite = true) (hx : x.isNaN = false)
    (hinfinite : x.isFinite = false) : (x - c).isNaN = false ∧ rank (x - c) = rank x := by
  obtain ⟨sign, hsign⟩ := eq_infinity hx hinfinite
  have hsub : UnpackedFloat.sub Format.binary64 x.toModel.unpack c.toModel.unpack =
      .infinity sign := by
    rw [isFinite_eq] at hc
    rw [hsign]
    cases hunpack : c.toModel.unpack <;> rw [hunpack] at hc <;> first | rfl | cases hc
  have hdifference : (x - c).toModel.unpack = .infinity sign := by
    rw [unpack_sub, hsub, unpack_pack_infinity]
  refine ⟨?_, (rank_infinity hdifference).trans (rank_infinity hsign).symm⟩
  rw [isNaN_eq, hdifference]
  rfl

theorem quotient_mono (hc : c.isFinite = true) (hpos : 0 < value c) (h : x ≤ y) :
    x / c ≤ y / c :=
  mono_of_spec (f := (· / c)) (g := (· / value c))
    (fun _ _ hle => div_le_div_of_nonneg_right hle hpos.le)
    (fun _ hx => div_spec hx hc hpos.ne') (fun _ hx hinfinite => div_infinite hc hpos hx hinfinite)
    h

theorem difference_mono (hc : c.isFinite = true) (h : x ≤ y) : x - c ≤ y - c :=
  mono_of_spec (f := (· - c)) (g := (· - value c))
    (fun _ _ hle => sub_le_sub_right hle (value c))
    (fun _ hx => sub_spec hx hc) (fun _ hx hinfinite => sub_infinite hc hx hinfinite) h

end Raceway.Double
