import Raceway.Proofs.Double.Rank
/-!
# Rounding of doubles

A mantissa with a round bit and a sticky bit knows enough of a number to round it.  Bits that are
shifted out of it go into the two, so that what is rounded in the end is the exact number, once.
-/

namespace Raceway.Double

open Float.Model (Format UnpackedFloat totalExponent)
open Float.Model.UnpackedFloat

/-- What a mantissa with its two residual bits says about a number. -/
def Represents (em : ExtendedMantissa) (q : ℚ) : Prop :=
  match em.roundBit, em.stickyBit with
  | false, false => q = em.mantissa
  | false, true => em.mantissa < q ∧ q < em.mantissa + 1 / 2
  | true, false => q = em.mantissa + 1 / 2
  | true, true => em.mantissa + 1 / 2 < q ∧ q < em.mantissa + 1

theorem represents_exact (m : ℕ) :
    Represents (ExtendedMantissa.ofMantissaAndAccuracy m .exact) m :=
  rfl

namespace Represents

variable {em : ExtendedMantissa} {q : ℚ}

theorem bounds (h : Represents em q) : em.mantissa ≤ q ∧ q < em.mantissa + 1 := by
  obtain ⟨m, round, sticky⟩ := em
  cases round <;> cases sticky <;> simp only [Represents] at h <;> constructor <;> linarith

theorem floor_eq (h : Represents em q) : ⌊q⌋₊ = em.mantissa :=
  (Nat.floor_eq_iff ((Nat.cast_nonneg _).trans h.bounds.1)).mpr h.bounds

theorem roundedMantissa_eq (h : Represents em q) : em.roundedMantissa = roundEven q := by
  rw [roundEven, h.floor_eq]
  obtain ⟨m, round, sticky⟩ := em
  cases round <;> cases sticky <;>
    simp only [Represents] at h <;>
    simp only [ExtendedMantissa.roundedMantissa, ExtendedMantissa.accuracy,
      Accuracy.roundToNearestEven]
  · rw [if_pos (by linarith)]
  · rw [if_pos h.2]
  · rw [if_neg (by linarith), if_pos h]
  · rw [if_neg (by linarith), if_neg (by linarith)]

theorem shiftRightOne (h : Represents em q) : Represents em.shiftRightOne (q / 2) := by
  obtain ⟨m, round, sticky⟩ := em
  have hm : (m : ℚ) = 2 * (m / 2 : ℕ) + (m % 2 : ℕ) := by exact_mod_cast (Nat.div_add_mod m 2).symm
  rcases Nat.mod_two_eq_zero_or_one m with hmod | hmod <;> rw [hmod] at hm <;>
    cases round <;> cases sticky <;>
    simp [Represents, ExtendedMantissa.shiftRightOne, hmod] at h hm ⊢ <;>
    grind

theorem shiftRight (h : Represents em q) (n : ℕ) : Represents (em >>> n) (q / 2 ^ n) := by
  change Represents (n.repeat ExtendedMantissa.shiftRightOne em) _
  induction n with
  | zero => rwa [Nat.repeat, pow_zero, div_one]
  | succ n ih =>
      rw [Nat.repeat, pow_succ, ← div_div]
      exact ih.shiftRightOne

end Represents

/-! ## Rounding in the model -/

theorem targetExponent_eq (m : ℕ) (e : ℤ) :
    Format.binary64.targetExponent (totalExponent m e) = max (m.log2 + e - 52) (-1074) := by
  have htarget : Format.binary64.targetExponent (totalExponent m e) =
      max (m.log2 + 1 + e - 53) (-1074) := rfl
  rw [htarget]
  omega

theorem shiftToExponent_eq {m : ℕ} {e t : ℤ} {acc : Accuracy} (h : e ≤ t) :
    shiftToExponent m e acc t =
      (ExtendedMantissa.ofMantissaAndAccuracy m acc >>> (t - e).toNat, t) := by
  rw [shiftToExponent]
  congr 1
  omega

theorem shiftToExponent_of_le {m : ℕ} {e t : ℤ} {acc : Accuracy} (h : t ≤ e) :
    shiftToExponent m e acc t = (ExtendedMantissa.ofMantissaAndAccuracy m acc, e) := by
  have hshift : (t - e).toNat = 0 := by omega
  rw [shiftToExponent, hshift]
  show (ExtendedMantissa.ofMantissaAndAccuracy m acc, e + ((0 : ℕ) : ℤ)) = _
  rw [Nat.cast_zero, add_zero]

/-- A mantissa that has been rounded fits into its binade, or it is the first of the next one. -/
theorem carry {k r : ℕ} (hr : r ≤ 2 ^ 53) (hk : k = 0 ∨ 2 ^ 52 ≤ r) :
    ∃ k' : ℕ, ∃ em : ExtendedMantissa,
      shiftToTargetExponent Format.binary64 r (k - 1074) .exact = (em, (k' : ℤ) - 1074) ∧
      k' * 2 ^ 52 + em.mantissa = k * 2 ^ 52 + r ∧ em.mantissa < 2 ^ 53 ∧
      (k' = 0 ∨ 2 ^ 52 ≤ em.mantissa) := by
  rw [shiftToTargetExponent, targetExponent_eq]
  rcases hr.lt_or_eq with hlt | rfl
  · have hlog : r.log2 < 53 := by
      rcases Nat.eq_zero_or_pos r with rfl | hpos
      · decide
      · exact (Nat.log2_lt hpos.ne').mpr hlt
    rw [shiftToExponent_of_le (by omega)]
    exact ⟨k, _, rfl, rfl, hlt, hk⟩
  · have htarget : max (((2 ^ 53 : ℕ).log2 : ℤ) + (k - 1074) - 52) (-1074) = k + 1 - 1074 := by
      rw [Nat.log2_two_pow]
      omega
    rw [htarget, shiftToExponent_eq (by omega)]
    have hshift : ((k : ℤ) + 1 - 1074 - (k - 1074)).toNat = 1 := by omega
    rw [hshift]
    refine ⟨k + 1, _, rfl, ?_⟩
    show (k + 1) * 2 ^ 52 + 2 ^ 53 / 2 = _ ∧ 2 ^ 53 / 2 < 2 ^ 53 ∧ (k + 1 = 0 ∨ 2 ^ 52 ≤ 2 ^ 53 / 2)
    omega

theorem inBinade_scaled {q : ℚ} {m k : ℕ} {e : ℤ} (hlow : m ≤ q) (hhigh : q < m + 1)
    (hk : (k : ℤ) = max (m.log2 + e + 1022) 0) (hm : k = 0 ∨ m ≠ 0) :
    InBinade k (q * 2 ^ (e + 1074)) := by
  have hunit : (0 : ℚ) < 2 ^ (e + 1074) := zpow_pos two_pos _
  have hscale (i : ℕ) : (2 : ℚ) ^ i * 2 ^ (e + 1074) = 2 ^ (i + (e + 1074)) := by
    rw [zpow_add₀ two_ne_zero (i : ℤ) (e + 1074), zpow_natCast]
  constructor
  · rcases Nat.eq_zero_or_pos k with hzero | hpos
    · exact Or.inl hzero
    · right
      have hmantissa : (2 : ℚ) ^ m.log2 ≤ m := by
        exact_mod_cast Nat.log2_self_le (hm.resolve_left hpos.ne')
      have hexponent : ((m.log2 : ℕ) : ℤ) + (e + 1074) = (52 + k : ℕ) := by omega
      calc (2 : ℚ) ^ (52 + k) = 2 ^ m.log2 * 2 ^ (e + 1074) := by
            rw [hscale, hexponent, zpow_natCast]
        _ ≤ q * 2 ^ (e + 1074) := mul_le_mul_of_nonneg_right (hmantissa.trans hlow) hunit.le
  · have hmantissa : (m + 1 : ℚ) ≤ 2 ^ (m.log2 + 1) := by
      exact_mod_cast (Nat.lt_log2_self : m < 2 ^ (m.log2 + 1))
    calc q * 2 ^ (e + 1074) < 2 ^ (m.log2 + 1) * 2 ^ (e + 1074) :=
          mul_lt_mul_of_pos_right (hhigh.trans_le hmantissa) hunit
      _ = 2 ^ (((m.log2 + 1 : ℕ) : ℤ) + (e + 1074)) := hscale _
      _ ≤ 2 ^ ((53 + k : ℕ) : ℤ) := zpow_le_zpow_right₀ one_le_two (by omega)
      _ = 2 ^ (53 + k) := zpow_natCast _ _

/-- How many least positive doubles make 1. -/
def scale : ℚ := 2 ^ (1074 : ℤ)

theorem scale_pos : 0 < scale :=
  zpow_pos two_pos _

theorem zpow_mul_scale (e : ℤ) : 2 ^ e * scale = 2 ^ (e + 1074) :=
  (zpow_add₀ two_ne_zero e 1074).symm

theorem pow_toNat_mul_zpow {a : ℚ} (ha : a ≠ 0) (e : ℤ) : a ^ (-e).toNat * a ^ e = a ^ e.toNat := by
  rw [← zpow_natCast, ← zpow_natCast, ← zpow_add₀ ha]
  congr 1
  omega

/-- The double by its parts is a number, rounded on a scale without an end. -/
structure Rounds (f : UnpackedFloat) (q : ℚ) : Prop where
  canonical : Canonical f
  number : f.isNaN = false
  rank_eq : rankOf f = signedNearest (q * scale)

theorem apply_nearest (sign : Sign) {q : ℚ} (hq : 0 ≤ q) :
    sign.apply (nearest q) = signedNearest (sign.apply 1 * q) := by
  rw [← signedNearest_of_nonneg hq]
  cases sign
  · rw [Sign.apply, Sign.apply, ← signedNearest_neg]
    congr 1
    push_cast
    ring
  · rw [Sign.apply, Sign.apply, Int.cast_one, one_mul]

@[simp] theorem mantissa_ofMantissaAndAccuracy (m : ℕ) (acc : Accuracy) :
    (ExtendedMantissa.ofMantissaAndAccuracy m acc).mantissa = m := by
  rcases acc with _ | _ | _ <;> rfl

theorem div_two_pow_eq (q : ℚ) {k : ℕ} {e : ℤ} (he : e ≤ k - 1074) :
    q / 2 ^ ((k : ℤ) - 1074 - e).toNat = q * 2 ^ (e + 1074) / 2 ^ k := by
  have hexponent : (k : ℤ) = (e + 1074) + ((k : ℤ) - 1074 - e).toNat := by omega
  have hpow : (2 : ℚ) ^ k = 2 ^ (e + 1074) * 2 ^ ((k : ℤ) - 1074 - e).toNat := by
    rw [← zpow_natCast, hexponent, zpow_add₀ two_ne_zero, zpow_natCast]
    congr 2
    omega
  rw [hpow, mul_comm q, mul_div_mul_left _ _ (zpow_ne_zero _ two_ne_zero)]

section

variable {m : ℕ} {e : ℤ} {acc : Accuracy} {q : ℚ}

/-- The first shift takes a mantissa to its binade, where it is rounded. -/
theorem roundedMantissa_shiftToTargetExponent {k : ℕ}
    (hrep : Represents (ExtendedMantissa.ofMantissaAndAccuracy m acc) q)
    (hk : (k : ℤ) = max (m.log2 + e + 1022) 0) (he : e ≤ k - 1074) :
    (shiftToTargetExponent Format.binary64 m e acc).1.roundedMantissa =
        roundEven (q * 2 ^ (e + 1074) / 2 ^ k) ∧
      (shiftToTargetExponent Format.binary64 m e acc).2 = k - 1074 := by
  have htarget : max ((m.log2 : ℤ) + e - 52) (-1074) = k - 1074 := by omega
  rw [shiftToTargetExponent, targetExponent_eq, htarget, shiftToExponent_eq he,
    ← div_two_pow_eq q he]
  exact ⟨(hrep.shiftRight _).roundedMantissa_eq, rfl⟩

/-- The parts of a rounded double: the second shift takes a carry to the next binade. -/
theorem roundWithAccuracy_parts (sign : Sign)
    (hrep : Represents (ExtendedMantissa.ofMantissaAndAccuracy m acc) q)
    (he : e ≤ Format.binary64.targetExponent (totalExponent m e)) :
    ∃ k n : ℕ, n < 2 ^ 53 ∧ (k = 0 ∨ 2 ^ 52 ≤ n) ∧
      k * 2 ^ 52 + n = nearest (q * 2 ^ (e + 1074)) ∧
      roundWithAccuracy Format.binary64 sign m e acc =
        if h : n = 0 then .zero sign
        else .finite sign n (k - 1074) (Nat.pos_of_ne_zero h) := by
  rw [targetExponent_eq] at he
  obtain ⟨k, hk⟩ : ∃ k : ℕ, (k : ℤ) = max (m.log2 + e + 1022) 0 :=
    ⟨_, Int.toNat_of_nonneg (by omega)⟩
  have hbinade : InBinade k (q * 2 ^ (e + 1074)) := by
    have hbounds := hrep.bounds
    rw [mantissa_ofMantissaAndAccuracy] at hbounds
    refine inBinade_scaled hbounds.1 hbounds.2 hk ?_
    by_contra! h
    rw [h.2, Nat.log2_zero] at hk he
    omega
  obtain ⟨hround, hexponent⟩ := roundedMantissa_shiftToTargetExponent hrep hk (by omega)
  obtain ⟨k', em, hcarry, hplace, hlt, hnormal⟩ := carry hbinade.roundEven_le
    (k.eq_zero_or_pos.imp_right hbinade.le_roundEven)
  rw [← nearest_eq hbinade] at hplace
  refine ⟨k', em.mantissa, hlt, hnormal, hplace, ?_⟩
  simp only [roundWithAccuracy, hround, hexponent, hcarry]

/-- The rounding of the model is that of the scale. -/
theorem rounds_roundWithAccuracy (sign : Sign)
    (hrep : Represents (ExtendedMantissa.ofMantissaAndAccuracy m acc) q)
    (he : e ≤ Format.binary64.targetExponent (totalExponent m e)) :
    Rounds (roundWithAccuracy Format.binary64 sign m e acc) (sign.apply 1 * (q * 2 ^ e)) := by
  obtain ⟨k, n, hlt, hnormal, hplace, hresult⟩ := roundWithAccuracy_parts sign hrep he
  have hrank : sign.apply (nearest (q * 2 ^ (e + 1074))) =
      signedNearest (sign.apply 1 * (q * 2 ^ e) * scale) := by
    have hnonneg : 0 ≤ q * 2 ^ (e + 1074) :=
      mul_nonneg ((Nat.cast_nonneg _).trans hrep.bounds.1) (zpow_pos two_pos _).le
    rw [apply_nearest sign hnonneg, mul_assoc, mul_assoc, zpow_mul_scale]
  rw [hresult]
  split_ifs with hzero
  · obtain rfl : k = 0 := hnormal.resolve_right (by omega)
    refine ⟨trivial, rfl, ?_⟩
    rw [← hrank, ← hplace, hzero]
    cases sign <;> rfl
  · refine ⟨⟨k, rfl, hlt, hnormal⟩, rfl, ?_⟩
    have hexponent : ((k : ℤ) - 1074 + 1074).toNat = k := by omega
    rw [← hrank, ← hplace, rankOf, hexponent]

end

end Raceway.Double
