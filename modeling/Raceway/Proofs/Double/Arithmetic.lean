import Raceway.Proofs.Double.Rounding
/-!
# Arithmetic of doubles

A sum, a difference or a product of finite doubles is the exact one, rounded once.  What is
rounded beyond the largest double is infinity, with the place that it would have on the scale.
-/

namespace Raceway.Double

open Float.Model (Format UnpackedFloat totalExponent)
open Float.Model.UnpackedFloat

/-! ## By parts -/

theorem apply_eq (sign : Sign) (n : ℤ) : sign.apply n = sign.apply 1 * n := by
  cases sign
  · exact neg_eq_neg_one_mul n
  · exact (one_mul n).symm

@[simp] theorem apply_neg (sign : Sign) (n : ℤ) : (-sign).apply n = -sign.apply n := by
  cases sign
  · exact (neg_neg n).symm
  · rfl

theorem valueOf_mul_scale {f : UnpackedFloat} (hf : Canonical f) (hfinite : f.isFinite = true) :
    valueOf f * scale = signedUnits (rankOf f) := by
  cases f with
  | notANumber => cases hfinite
  | infinity => cases hfinite
  | zero sign =>
      have hrank : rankOf (.zero sign) = 0 := rfl
      have hvalue : valueOf (.zero sign) = 0 := rfl
      rw [hrank, hvalue, signedUnits, Int.sign_zero, zero_mul, zero_mul, Int.cast_zero]
  | finite sign m e hpos =>
      obtain ⟨k, rfl, hm, hk⟩ := hf
      have hplace : ((k : ℤ) - 1074 + 1074).toNat = k := by omega
      have hsign (n : ℕ) : signedUnits (sign.apply n) = sign.apply (units n) := by
        cases sign
        · simp [Sign.apply]
        · simp [Sign.apply]
      rw [rankOf, hplace, hsign, units_place hm hk, valueOf, mul_assoc, zpow_mul_scale,
        sub_add_cancel, zpow_natCast, apply_eq, apply_eq sign (m * 2 ^ k : ℕ)]
      push_cast
      ring

theorem Rounds.of_canonical {f : UnpackedFloat} (hf : Canonical f) (hfinite : f.isFinite = true) :
    Rounds f (valueOf f) := by
  refine ⟨hf, ?_, ?_⟩
  · cases f with
    | notANumber => cases hfinite
    | _ => rfl
  · rw [valueOf_mul_scale hf hfinite, signedNearest_signedUnits]

theorem decreaseExponent_eq (m : ℕ) (e t : ℤ) :
    decreaseExponent m e t = (m * 2 ^ (e - t).toNat, e - (e - t).toNat) := by
  rw [decreaseExponent, Nat.shiftLeft_eq]

theorem decreaseExponent_value (m : ℕ) (e t : ℤ) :
    ((decreaseExponent m e t).1 : ℚ) * 2 ^ (decreaseExponent m e t).2 = m * 2 ^ e := by
  rw [decreaseExponent_eq]
  push_cast
  rw [mul_assoc, ← zpow_natCast, ← zpow_add₀ two_ne_zero, add_sub_cancel]

theorem log2_mul_two_pow {m : ℕ} (hm : m ≠ 0) (n : ℕ) : (m * 2 ^ n).log2 = m.log2 + n := by
  induction n with
  | zero => rw [pow_zero, mul_one, Nat.add_zero]
  | succ n ih =>
      rw [pow_succ, ← mul_assoc, mul_comm _ 2, Nat.log2_two_mul (by positivity), ih, Nat.add_assoc]

theorem rounds_round (sign : Sign) {m : ℕ} (e : ℤ) (hm : m ≠ 0) :
    Rounds (UnpackedFloat.round Format.binary64 sign m e) ((sign.apply m : ℤ) * 2 ^ e) := by
  rw [apply_eq, Int.cast_mul, Int.cast_natCast, mul_assoc,
    ← decreaseExponent_value m e (Format.binary64.targetExponent (totalExponent m e))]
  refine rounds_roundWithAccuracy sign (represents_exact _) ?_
  simp only [targetExponent_eq, Nat.shiftLeft_eq, log2_mul_two_pow hm]
  omega

theorem Rounds.zero (sign : Sign) : Rounds (.zero sign) 0 :=
  .of_canonical trivial rfl

theorem rounds_normalize (n : ℤ) (e : ℤ) (zeroSign : Sign) :
    Rounds (UnpackedFloat.normalize Format.binary64 n e zeroSign) (n * 2 ^ e) := by
  unfold UnpackedFloat.normalize
  rcases lt_trichotomy n 0 with hneg | rfl | hpos
  · rw [compare_lt_iff_lt.mpr hneg]
    have hround := rounds_round .negative e (m := (-n).toNat) (by omega)
    have happly : Sign.apply .negative (-n).toNat = n := by
      rw [Sign.apply]
      omega
    rwa [happly] at hround
  · rw [compare_eq_iff_eq.mpr rfl, Int.cast_zero, zero_mul]
    exact Rounds.zero zeroSign
  · rw [compare_gt_iff_gt.mpr hpos]
    have hround := rounds_round .positive e (m := n.toNat) (by omega)
    rwa [Sign.apply, Int.toNat_of_nonneg hpos.le] at hround

theorem apply_decreaseExponent (sign : Sign) {m : ℕ} {e t : ℤ} (h : t ≤ e) :
    (sign.apply (decreaseExponent m e t).1 : ℚ) * 2 ^ t = sign.apply m * 2 ^ e := by
  have hvalue := decreaseExponent_value m e t
  have hexponent : (decreaseExponent m e t).2 = t := by
    rw [decreaseExponent_eq]
    omega
  rw [hexponent] at hvalue
  cases sign
  · simp only [Sign.apply, Int.cast_neg, Int.cast_natCast, neg_mul, hvalue]
  · simp only [Sign.apply, Int.cast_natCast, hvalue]

theorem rounds_add {f g : UnpackedFloat} (hf : Canonical f) (hg : Canonical g)
    (hffinite : f.isFinite = true) (hgfinite : g.isFinite = true) :
    Rounds (UnpackedFloat.add Format.binary64 f g) (valueOf f + valueOf g) := by
  have hf' := Rounds.of_canonical hf hffinite
  have hg' := Rounds.of_canonical hg hgfinite
  cases f with
  | notANumber => cases hffinite
  | infinity => cases hffinite
  | zero s =>
      have hzero : valueOf (.zero s) = 0 := rfl
      rw [hzero, zero_add]
      cases g with
      | notANumber => cases hgfinite
      | infinity => cases hgfinite
      | zero t =>
          rw [UnpackedFloat.add]
          split_ifs
          · exact Rounds.zero s
          · exact Rounds.zero .positive
      | finite t n d hn => exact hg'
  | finite s m e hm =>
      cases g with
      | notANumber => cases hgfinite
      | infinity => cases hgfinite
      | zero t =>
          have hzero : valueOf (.zero t) = 0 := rfl
          rw [hzero, add_zero]
          exact hf'
      | finite t n d hn =>
          have hsum : valueOf (.finite s m e hm) + valueOf (.finite t n d hn) =
              ((s.apply (decreaseExponent m e (min e d)).1 +
                t.apply (decreaseExponent n d (min e d)).1 : ℤ) : ℚ) * 2 ^ min e d := by
            push_cast
            rw [add_mul, apply_decreaseExponent s (min_le_left e d),
              apply_decreaseExponent t (min_le_right e d)]
            rfl
          rw [hsum]
          exact rounds_normalize _ _ _

theorem add_symm (f g : UnpackedFloat) :
    UnpackedFloat.add Format.binary64 f g = UnpackedFloat.add Format.binary64 g f := by
  cases f with
  | finite s m e hm =>
      cases g with
      | finite t n d hn =>
          simp only [UnpackedFloat.add, min_comm d e]
          rw [Int.add_comm]
      | _ => rfl
  | infinity s =>
      cases g with
      | infinity t => cases s <;> cases t <;> rfl
      | _ => rfl
  | zero s =>
      cases g with
      | zero t => cases s <;> cases t <;> rfl
      | _ => rfl
  | notANumber => cases g <;> rfl

theorem sub_eq_add (f g : UnpackedFloat) :
    UnpackedFloat.sub Format.binary64 f g = UnpackedFloat.add Format.binary64 f g.neg := by
  cases f <;> cases g <;>
    simp only [UnpackedFloat.sub, UnpackedFloat.add, UnpackedFloat.neg, apply_neg,
      Int.sub_eq_add_neg]

theorem add_cases (f g : UnpackedFloat) : (f.isFinite = true ∧ g.isFinite = true) ∨
    UnpackedFloat.add Format.binary64 f g = .notANumber ∨
    ∃ sign, UnpackedFloat.add Format.binary64 f g = .infinity sign := by
  cases f with
  | notANumber => exact Or.inr (Or.inl rfl)
  | infinity s =>
      right
      cases g with
      | notANumber => exact Or.inl rfl
      | infinity t =>
          cases s <;> cases t
          · exact Or.inr ⟨_, rfl⟩
          · exact Or.inl rfl
          · exact Or.inl rfl
          · exact Or.inr ⟨_, rfl⟩
      | _ => exact Or.inr ⟨_, rfl⟩
  | _ =>
      cases g with
      | notANumber => exact Or.inr (Or.inl rfl)
      | infinity t => exact Or.inr (Or.inr ⟨_, rfl⟩)
      | _ => exact Or.inl ⟨rfl, rfl⟩

theorem sub_cases (f g : UnpackedFloat) : (f.isFinite = true ∧ g.isFinite = true) ∨
    UnpackedFloat.sub Format.binary64 f g = .notANumber ∨
    ∃ sign, UnpackedFloat.sub Format.binary64 f g = .infinity sign := by
  have hneg : g.neg.isFinite = g.isFinite := by cases g <;> rfl
  rw [sub_eq_add, ← hneg]
  exact add_cases f g.neg

@[simp] theorem valueOf_neg (f : UnpackedFloat) : valueOf f.neg = -valueOf f := by
  cases f with
  | finite sign m e hm =>
      cases sign
      · show (m : ℤ) * (2 : ℚ) ^ e = -((-(m : ℤ) : ℤ) * 2 ^ e)
        push_cast
        ring
      · show ((-(m : ℤ) : ℤ) : ℚ) * 2 ^ e = -((m : ℤ) * 2 ^ e)
        push_cast
        ring
  | _ => exact neg_zero.symm

theorem rounds_sub {f g : UnpackedFloat} (hf : Canonical f) (hg : Canonical g)
    (hffinite : f.isFinite = true) (hgfinite : g.isFinite = true) :
    Rounds (UnpackedFloat.sub Format.binary64 f g) (valueOf f - valueOf g) := by
  have hcanonical : Canonical g.neg := by cases g <;> exact hg
  have hfinite : g.neg.isFinite = true := by cases g <;> exact hgfinite
  have hadd := rounds_add hf hcanonical hffinite hfinite
  rwa [← sub_eq_add, valueOf_neg, ← sub_eq_add_neg] at hadd

/-- A product has a mantissa of 53 bits or more, unless both doubles are in the lowest binade. -/
theorem mul_exponent_le {m n : ℕ} {e d : ℤ} {s t : Sign} {hm : 0 < m} {hn : 0 < n}
    (h : Canonical (.finite s m e hm)) (h' : Canonical (.finite t n d hn)) :
    e + d ≤ Format.binary64.targetExponent (totalExponent (m * n) (e + d)) := by
  obtain ⟨k, rfl, -, hk⟩ := h
  obtain ⟨l, rfl, -, hl⟩ := h'
  rw [targetExponent_eq]
  have hlog (h : 2 ^ 52 ≤ m * n) : 52 ≤ (m * n).log2 :=
    (Nat.le_log2 (Nat.mul_pos hm hn).ne').mpr h
  rcases hk with rfl | hnormal
  · rcases hl with rfl | hnormal
    · omega
    · have := hlog (hnormal.trans (Nat.le_mul_of_pos_left n hm))
      omega
  · have := hlog (hnormal.trans (Nat.le_mul_of_pos_right m hn))
    omega

theorem rounds_mul {f g : UnpackedFloat} (hf : Canonical f) (hg : Canonical g)
    (hffinite : f.isFinite = true) (hgfinite : g.isFinite = true) :
    Rounds (UnpackedFloat.mul Format.binary64 f g) (valueOf f * valueOf g) := by
  cases f with
  | notANumber => cases hffinite
  | infinity => cases hffinite
  | zero s =>
      have hzero : valueOf (.zero s) = 0 := rfl
      rw [hzero, zero_mul]
      cases g with
      | notANumber => cases hgfinite
      | infinity => cases hgfinite
      | zero t => exact Rounds.zero _
      | finite t n d hn => exact Rounds.zero _
  | finite s m e hm =>
      cases g with
      | notANumber => cases hgfinite
      | infinity => cases hgfinite
      | zero t =>
          have hzero : valueOf (.zero t) = 0 := rfl
          rw [hzero, mul_zero]
          exact Rounds.zero _
      | finite t n d hn =>
          have hsign : (s * t).apply 1 = s.apply 1 * t.apply 1 := by
            cases s <;> cases t <;> rfl
          have hproduct : valueOf (.finite s m e hm) * valueOf (.finite t n d hn) =
              ((s * t).apply 1 : ℤ) * (((m * n : ℕ) : ℚ) * 2 ^ (e + d)) := by
            rw [valueOf, valueOf, zpow_add₀ two_ne_zero, hsign, apply_eq s, apply_eq t]
            push_cast
            ring
          rw [hproduct]
          exact rounds_roundWithAccuracy _ (represents_exact _) (mul_exponent_le hf hg)

end Raceway.Double
