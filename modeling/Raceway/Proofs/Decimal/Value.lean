import Raceway.Decimal.Nearest
import Raceway.Proofs.Double.Quotient
import Raceway.Proofs.Double.Whole
/-!
# The value of a decimal

A decimal is read as the double nearest to it.  Short ones are found by one multiplication or
division by a power of ten that is itself a double; all others are rounded from the exact product
or quotient.
-/

namespace Raceway.Double

open Float.Model (Format UnpackedFloat totalExponent)
open Float.Model.UnpackedFloat

/-! ## Numbers beyond the scale -/

theorem units_top : (units top : ℚ) = 2 ^ 1024 * scale := by
  have htop : top = 2046 * 2 ^ 52 + 2 ^ 52 := by decide
  rw [htop, units_place (by decide) (Or.inr le_rfl), scale, Nat.cast_mul, Nat.cast_pow,
    Nat.cast_pow, Nat.cast_ofNat, ← pow_add, ← zpow_natCast, ← zpow_natCast,
    ← zpow_add₀ two_ne_zero]
  rfl

theorem round_of_large {q : ℚ} (h : 2 ^ 1024 ≤ q) : round q = top := by
  have hscaled : (signedUnits top : ℚ) ≤ q * scale := by
    rw [signedUnits_natCast, Int.cast_natCast, units_top]
    exact mul_le_mul_of_nonneg_right h scale_pos.le
  have hle := signedNearest_mono hscaled
  rw [signedNearest_signedUnits] at hle
  unfold round clamp
  omega

theorem round_of_small {q : ℚ} (hq : 0 ≤ q) (h : q * scale < 1 / 2) : round q = 0 := by
  have hscaled : 0 ≤ q * scale := mul_nonneg hq scale_pos.le
  have hbinade : InBinade 0 (q * scale) := ⟨Or.inl rfl, h.trans (by norm_num)⟩
  have hfloor : ⌊q * scale⌋₊ = 0 := Nat.floor_eq_zero.mpr (h.trans (by norm_num))
  have hround : roundEven (q * scale) = 0 := by
    rw [roundEven, hfloor, if_pos (by simpa using h)]
  rw [round, signedNearest_of_nonneg hscaled, nearest_eq hbinade, pow_zero, div_one, hround]
  rfl

/-! ## Powers of ten -/

/-- Whether a double, by its parts, has the value of a natural number. -/
def isNatural (n : ℕ) : UnpackedFloat → Bool
  | .finite .positive m e _ => m * 2 ^ e.toNat == n * 2 ^ (-e).toNat
  | _ => false

theorem value_of_isNatural {x : Float} {n : ℕ} (h : isNatural n x.toModel.unpack = true) :
    x.isFinite = true ∧ value x = n := by
  rw [isFinite_eq, value]
  cases hunpack : x.toModel.unpack with
  | finite s m e hm =>
      rw [hunpack] at h
      cases s with
      | negative => cases h
      | positive =>
          have hnat : m * 2 ^ e.toNat = n * 2 ^ (-e).toNat := eq_of_beq h
          have hrat : (m : ℚ) * 2 ^ e.toNat = n * 2 ^ (-e).toNat := by exact_mod_cast hnat
          refine ⟨rfl, mul_right_cancel₀ (b := (2 : ℚ) ^ (-e).toNat) (by positivity) ?_⟩
          rw [← hrat, valueOf, Sign.apply, Int.cast_natCast, mul_assoc, mul_comm (2 ^ e),
            pow_toNat_mul_zpow two_ne_zero]
  | _ => rw [hunpack] at h; cases h

theorem powers_isNatural : ∀ i : Fin Float.exactlyRepresentablePowersOfTen.size,
    isNatural (10 ^ i.val) Float.exactlyRepresentablePowersOfTen[i].toModel.unpack = true := by
  decide

theorem power_spec {e : ℕ} (he : e < Float.exactlyRepresentablePowersOfTen.size) :
    Float.exactlyRepresentablePowersOfTen[e].isFinite = true ∧
      value Float.exactlyRepresentablePowersOfTen[e] = 10 ^ e := by
  have h := value_of_isNatural (powers_isNatural ⟨e, he⟩)
  rwa [Nat.cast_pow, Nat.cast_ofNat] at h

/-! ## Long decimals -/

section

variable {m : ℕ} {e : ℤ}

theorem rounds_ofScientific_of_nonneg (hm : 0 < m) (he : 0 ≤ e) :
    Rounds (UnpackedFloat.mul Format.binary64
        (.finite .positive (m <<< 53) (-53) (by rw [Nat.shiftLeft_eq]; positivity))
        (.finite .positive (10 ^ e.toNat) 0 (by positivity)))
      (m * 10 ^ e) := by
  have hlarge : 2 ^ 53 ≤ m <<< 53 * 10 ^ e.toNat := by
    rw [Nat.shiftLeft_eq, mul_comm m, mul_assoc]
    exact Nat.le_mul_of_pos_right _ (by positivity)
  have hlog : 53 ≤ (m <<< 53 * 10 ^ e.toNat).log2 := (Nat.le_log2 (by omega)).mpr hlarge
  have hrounds := rounds_roundWithAccuracy .positive
    (represents_exact (m <<< 53 * 10 ^ e.toNat)) (e := -53 + 0) (by rw [targetExponent_eq]; omega)
  have hvalue : ((Sign.apply .positive 1 : ℤ) : ℚ) *
      (((m <<< 53 * 10 ^ e.toNat : ℕ) : ℚ) * 2 ^ (-53 + 0 : ℤ)) = m * 10 ^ e := by
    have hpower : (10 : ℚ) ^ e = 10 ^ e.toNat := by
      rw [← zpow_natCast, Int.toNat_of_nonneg he]
    rw [hpower, Nat.shiftLeft_eq, Sign.apply]
    push_cast
    ring
  rwa [hvalue] at hrounds

theorem rounds_ofScientific_of_neg (hm : 0 < m) (he : e < 0) :
    Rounds (UnpackedFloat.div Format.binary64 (.finite .positive m 0 hm)
        (.finite .positive (10 ^ (-e).toNat) 0 (by positivity)))
      (m * 10 ^ e) := by
  have hpower : (10 : ℚ) ^ e = (10 ^ (-e).toNat)⁻¹ := by
    rw [← zpow_natCast, Int.toNat_of_nonneg (by omega), zpow_neg, inv_inv]
  have hten : valueOf (.finite .positive (10 ^ (-e).toNat) 0 (by positivity)) =
      10 ^ (-e).toNat := by
    simp [valueOf, Sign.apply]
  have hnum : valueOf (.finite .positive m 0 hm) = m := by
    simp [valueOf, Sign.apply]
  rw [hpower, ← div_eq_mul_inv, ← hten, ← hnum]
  refine rounds_div rfl rfl ?_
  rw [hten]
  positivity

end

theorem round_of_scale_gt {m : ℕ} {e : ℤ} (hm : 0 < m) (he : 2 ^ 11 < e) :
    round (m * 10 ^ e) = top := by
  apply round_of_large
  calc (2 : ℚ) ^ 1024 ≤ 10 ^ 1024 := by gcongr; norm_num
    _ = 10 ^ (1024 : ℤ) := (zpow_natCast _ _).symm
    _ ≤ 10 ^ e := zpow_le_zpow_right₀ (by norm_num) (by omega)
    _ ≤ m * 10 ^ e := le_mul_of_one_le_left (by positivity) (by exact_mod_cast hm)

theorem round_of_scale_lt {m : ℕ} {e : ℤ} (he : e < -(2 ^ 11 + (m.log2 : ℤ))) :
    round (m * 10 ^ e) = 0 := by
  apply round_of_small (by positivity)
  have hm : (m : ℚ) < 2 ^ ((m.log2 : ℤ) + 1) := by
    exact_mod_cast Nat.lt_log2_self (n := m)
  have hpower : (10 : ℚ) ^ e ≤ 2 ^ e := by
    obtain ⟨n, rfl⟩ : ∃ n : ℕ, e = -n := ⟨(-e).toNat, by omega⟩
    rw [zpow_neg, zpow_neg, zpow_natCast, zpow_natCast]
    exact inv_anti₀ (by positivity) (pow_le_pow_left₀ (by norm_num) (by norm_num) n)
  have hvalue : m * (10 : ℚ) ^ e < 2 ^ ((m.log2 : ℤ) + 1) * 2 ^ e := by
    calc m * (10 : ℚ) ^ e ≤ m * 2 ^ e := by gcongr
      _ < 2 ^ ((m.log2 : ℤ) + 1) * 2 ^ e := by gcongr
  calc m * 10 ^ e * scale < 2 ^ ((m.log2 : ℤ) + 1) * 2 ^ e * scale :=
        mul_lt_mul_of_pos_right hvalue scale_pos
    _ = 2 ^ ((m.log2 : ℤ) + 1 + e + 1074) := by
        rw [scale, ← zpow_add₀ two_ne_zero, ← zpow_add₀ two_ne_zero]
    _ ≤ 2 ^ (-1 : ℤ) := zpow_le_zpow_right₀ one_le_two (by omega)
    _ = 1 / 2 := by norm_num

theorem ofScientific_spec (m : ℕ) (e : ℤ) :
    (Float.ofModel (Float.Model.ofScientific m e)).isNaN = false ∧
      rank (Float.ofModel (Float.Model.ofScientific m e)) = round (m * 10 ^ e) := by
  unfold Float.Model.ofScientific UnpackedFloat.ofScientific
  split_ifs with hzero hlarge hsmall hnonneg
  · rw [hzero, Nat.cast_zero, zero_mul]
    exact of_rounds (.zero _)
  · rw [round_of_scale_gt (Nat.pos_of_ne_zero hzero) hlarge]
    exact ⟨rfl, rfl⟩
  · rw [round_of_scale_lt hsmall]
    exact ⟨rfl, rfl⟩
  · exact of_rounds (rounds_ofScientific_of_nonneg (Nat.pos_of_ne_zero hzero) hnonneg)
  · exact of_rounds (rounds_ofScientific_of_neg (Nat.pos_of_ne_zero hzero) (not_le.mp hnonneg))

/-! ## All decimals -/

theorem ofScientific_short {m e : ℕ} (h : m < 2 ^ 53 ∧ e ≤ 22)
    (he : e < Float.exactlyRepresentablePowersOfTen.size) (left : Bool) :
    Float.ofScientific m left e =
      if left then m.toUInt64.toFloat / Float.exactlyRepresentablePowersOfTen[e]
      else m.toUInt64.toFloat * Float.exactlyRepresentablePowersOfTen[e] :=
  dif_pos h

theorem ofScientific_long {m e : ℕ} (h : ¬(m < 2 ^ 53 ∧ e ≤ 22)) (left : Bool) :
    Float.ofScientific m left e = Float.ofModel
      (Float.Model.ofScientific m (if left then Int.negOfNat e else Int.ofNat e)) :=
  dif_neg h

/-- Reading a decimal rounds it once. -/
theorem toDouble_spec (n : ℕ) (k : ℤ) :
    (Decimal.toDouble n k).isNaN = false ∧
      rank (Decimal.toDouble n k) = round (n * 10 ^ k) := by
  cases k with
  | ofNat e =>
      rw [Decimal.toDouble]
      by_cases hshort : n < 2 ^ 53 ∧ e ≤ 22
      · obtain ⟨hfinite, hvalue⟩ := ofNatural_spec hshort.1
        have he := Nat.lt_succ_of_le hshort.2
        obtain ⟨hpower, hten⟩ := power_spec he
        have h := mul_spec hfinite hpower
        rw [hvalue, hten] at h
        rw [ofScientific_short hshort he, if_neg Bool.false_ne_true, Int.ofNat_eq_natCast,
          zpow_natCast]
        exact h
      · rw [ofScientific_long hshort]
        exact ofScientific_spec n e
  | negSucc e =>
      rw [Decimal.toDouble]
      by_cases hshort : n < 2 ^ 53 ∧ e + 1 ≤ 22
      · obtain ⟨hfinite, hvalue⟩ := ofNatural_spec hshort.1
        have he := Nat.lt_succ_of_le hshort.2
        obtain ⟨hpower, hten⟩ := power_spec he
        have h := div_spec hfinite hpower (by rw [hten]; positivity)
        rw [hvalue, hten, div_eq_mul_inv] at h
        rw [ofScientific_short hshort he, if_pos rfl, zpow_negSucc]
        exact h
      · rw [ofScientific_long hshort]
        exact ofScientific_spec n (Int.negSucc e)

end Raceway.Double
