import Raceway.Decimal.Shortest
import Raceway.Proofs.Double.Rank
import Raceway.Proofs.Double.Rounding
/-!
# What shortest decimals stand for

A shortest decimal is searched among those that round to a double.  Whether one does is tested by
whole numbers only, and the test is the rounding of the scale: to the nearest double, to the even
one of two, and by a smaller step below a power of two.
-/

namespace Raceway

namespace Double

theorem roundEven_eq {q : ℚ} {m : ℕ} (hm : 0 < m) (hlow : m - 1 / 2 ≤ q) (hhigh : q ≤ m + 1 / 2)
    (hends : m % 2 = 0 ∨ (m - 1 / 2 < q ∧ q < m + 1 / 2)) : roundEven q = m := by
  have hone : (1 : ℚ) ≤ m := by exact_mod_cast hm
  rcases lt_or_ge q m with hlt | hge
  · have hfloor : ⌊q⌋₊ = m - 1 := by
      rw [Nat.floor_eq_iff (by linarith), Nat.cast_sub hm, Nat.cast_one]
      exact ⟨by linarith, by linarith⟩
    have hcast : ((m - 1 : ℕ) : ℚ) = m - 1 := by rw [Nat.cast_sub hm, Nat.cast_one]
    rw [roundEven, hfloor, hcast, if_neg (by linarith)]
    split_ifs with htie
    · have : m % 2 = 0 := hends.resolve_right fun h => by linarith [h.1]
      omega
    · omega
  · have hfloor : ⌊q⌋₊ = m := by
      rw [Nat.floor_eq_iff (by linarith)]
      exact ⟨hge, by linarith⟩
    rw [roundEven, hfloor]
    split_ifs with hbelow htie
    · rfl
    · have : m % 2 = 0 := hends.resolve_right fun h => by linarith [h.2]
      omega
    · exact absurd (le_antisymm hhigh (not_lt.mp hbelow)) htie

/-- The numbers that are rounded to a place, given by mantissas of its binade.  Below the first
place of a binade the step is half as long. -/
theorem nearest_of_bounds {k m : ℕ} {q : ℚ} (hpos : 0 < m) (hm : m < 2 ^ 53)
    (hk : k = 0 ∨ 2 ^ 52 ≤ m) (hhigh : q ≤ m + 1 / 2)
    (hlow : m - (if m = 2 ^ 52 ∧ 0 < k then 1 / 4 else 1 / 2) ≤ q)
    (hends : m % 2 = 0 ∨ (m - 1 / 2 < q ∧ q < m + 1 / 2)) :
    nearest (q * 2 ^ k) = k * 2 ^ 52 + m := by
  have hm' : (m : ℚ) + 1 ≤ 2 ^ 53 := by exact_mod_cast hm
  by_cases hbelow : m = 2 ^ 52 ∧ 0 < k ∧ q < m
  · -- The number lies in the binade below, at its upper end.
    obtain ⟨rfl, hkpos, hlt⟩ := hbelow
    obtain ⟨l, rfl⟩ : ∃ l, k = l + 1 := Nat.exists_eq_succ_of_ne_zero hkpos.ne'
    rw [if_pos ⟨rfl, hkpos⟩] at hlow
    push_cast at hlow hlt
    have hdouble : q * 2 ^ (l + 1) = 2 * q * 2 ^ l := by ring
    have hbinade : InBinade l (2 * q * 2 ^ l) := by
      refine ⟨Or.inr ?_, ?_⟩
      · rw [pow_add]
        gcongr
        linarith
      · rw [pow_add]
        gcongr
        linarith
    rw [hdouble, nearest_eq hbinade, mul_div_cancel_right₀ _ (by positivity),
      roundEven_eq (m := 2 ^ 53) (by decide) (by push_cast; linarith) (by push_cast; linarith)
        (Or.inl (by decide))]
    ring
  · have hhalf : (m : ℚ) - 1 / 2 ≤ q := by
      split_ifs at hlow <;> linarith
    have hbinade : InBinade k (q * 2 ^ k) := by
      constructor
      · rcases k.eq_zero_or_pos with hzero | hkpos
        · exact Or.inl hzero
        · have hnormal : 2 ^ 52 ≤ q := by
            rcases (hk.resolve_left hkpos.ne').lt_or_eq with hlt | rfl
            · have : (2 : ℚ) ^ 52 + 1 ≤ m := by exact_mod_cast hlt
              linarith
            · by_contra! hlt
              exact hbelow ⟨rfl, hkpos, by exact_mod_cast hlt⟩
          right
          rw [pow_add]
          gcongr
      · rw [pow_add]
        gcongr
        linarith
    rw [nearest_eq hbinade, mul_div_cancel_right₀ _ (by positivity),
      roundEven_eq hpos hhalf hhigh hends]

end Double

namespace Decimal

open Double (nearest scale scale_pos nearest_of_bounds)

/-- The number that a decimal stands for. -/
def Digits.value (d : Digits) : ℚ :=
  d.digits * 10 ^ d.scale

@[simp] theorem Digits.strip_value (d : Digits) : d.strip.value = d.value := by
  fun_induction Digits.strip d with
  | case1 d h ih =>
      have hdigits : (d.digits : ℚ) = (d.digits / 10 : ℕ) * 10 := by
        exact_mod_cast (Nat.div_mul_cancel (Nat.dvd_of_mod_eq_zero h.2)).symm
      rw [ih, value, value, hdigits, zpow_add_one₀ (by norm_num)]
      ring
  | case2 d h => rfl

namespace Magnitude

/-- What a unit is worth, in steps of the double. -/
theorem inUnits_spec (x : Magnitude) (grid : ℤ) :
    0 < (x.inUnits grid).unit ∧
      (x.inUnits grid).den * 2 ^ x.exponent = (x.inUnits grid).unit * (10 : ℚ) ^ grid := by
  have htwo := Double.pow_toNat_mul_zpow (two_ne_zero (α := ℚ)) x.exponent
  have hten := Double.pow_toNat_mul_zpow (a := 10) (by norm_num) grid
  simp only [inUnits, tenTo, Nat.shiftLeft_eq, Nat.pow_eq]
  refine ⟨by positivity, ?_⟩
  push_cast
  rw [mul_assoc, htwo, mul_comm ((10 : ℚ) ^ (-grid).toNat), mul_assoc, hten, mul_comm]

variable {x : Magnitude} {k n : ℕ} {grid : ℤ}

theorem narrowBelow_iff (hexponent : x.exponent = k - 1074) :
    x.narrowBelow = true ↔ x.mantissa = 2 ^ 52 ∧ 0 < k := by
  rw [narrowBelow, Bool.and_eq_true, beq_iff_eq, decide_eq_true_eq, Nat.one_shiftLeft]
  exact and_congr_right fun _ => by omega

/-- What the test says in whole numbers, as bounds on the number in steps of the double. -/
theorem bounds_of_holds {q : ℚ} {r : Ratio} (hpos : 0 < x.mantissa) (hunit : 0 < r.unit)
    (hq : q * r.unit = n * r.den) (h : x.holds r n = true) :
    q ≤ x.mantissa + 1 / 2 ∧ x.mantissa - (if x.narrowBelow then 1 / 4 else 1 / 2) ≤ q ∧
      (x.mantissa % 2 = 0 ∨ (x.mantissa - 1 / 2 < q ∧ q < x.mantissa + 1 / 2)) := by
  have hunit' : (0 : ℚ) < r.unit := by exact_mod_cast hunit
  obtain ⟨low, hlow⟩ : ∃ low, low = 4 * x.mantissa - if x.narrowBelow then 1 else 2 := ⟨_, rfl⟩
  have hcast : (low : ℚ) = 4 * (x.mantissa - if x.narrowBelow then 1 / 4 else 1 / 2) := by
    rw [hlow]
    split_ifs
    · rw [Nat.cast_sub (by omega)]
      push_cast
      ring
    · rw [Nat.cast_sub (by omega)]
      push_cast
      ring
  have hpoint : ((4 * (n * r.den) : ℕ) : ℚ) = 4 * q * r.unit := by
    push_cast
    rw [← hq]
    ring
  have hle {c : ℕ} : c * r.unit ≤ 4 * (n * r.den) ↔ (c : ℚ) ≤ 4 * q := by
    rw [← Nat.cast_le (α := ℚ), hpoint, Nat.cast_mul, mul_le_mul_iff_left₀ hunit']
  have hge {c : ℕ} : 4 * (n * r.den) ≤ c * r.unit ↔ 4 * q ≤ (c : ℚ) := by
    rw [← Nat.cast_le (α := ℚ), hpoint, Nat.cast_mul, mul_le_mul_iff_left₀ hunit']
  simp only [holds, ← hlow] at h
  split_ifs at h with heven
  · rw [decide_eq_true_eq, hle, hge, hcast] at h
    push_cast at h
    exact ⟨by linarith [h.2], by linarith [h.1], Or.inl (eq_of_beq heven)⟩
  · -- Only below a power of two the step is smaller, and its mantissa is even.
    have hwide : x.narrowBelow = false := by
      by_contra hnarrow
      rw [Bool.not_eq_false, narrowBelow, Bool.and_eq_true, beq_iff_eq] at hnarrow
      rw [hnarrow.1] at heven
      exact heven rfl
    rw [hwide] at hcast ⊢
    rw [decide_eq_true_eq, ← not_le, ← not_le, hle, hge, not_le, not_le, hcast] at h
    push_cast at h
    simp only [Bool.false_eq_true, if_false] at h ⊢
    exact ⟨by linarith [h.2], by linarith [h.1], Or.inr ⟨by linarith [h.1], by linarith [h.2]⟩⟩

theorem nearest_of_holds (hexponent : x.exponent = k - 1074) (hpos : 0 < x.mantissa)
    (hm : x.mantissa < 2 ^ 53) (hk : k = 0 ∨ 2 ^ 52 ≤ x.mantissa)
    (h : x.holds (x.inUnits grid) n = true) :
    nearest (n * 10 ^ grid * scale) = k * 2 ^ 52 + x.mantissa := by
  obtain ⟨hunit, hratio⟩ := x.inUnits_spec grid
  have hstep : (0 : ℚ) < 2 ^ x.exponent := by positivity
  obtain ⟨q, hq⟩ : ∃ q : ℚ, q * 2 ^ x.exponent = n * 10 ^ grid :=
    ⟨n * 10 ^ grid / 2 ^ x.exponent, div_mul_cancel₀ _ hstep.ne'⟩
  have hsteps : q * (x.inUnits grid).unit = n * (x.inUnits grid).den := by
    apply mul_right_cancel₀ hstep.ne'
    rw [mul_right_comm, hq, mul_assoc (n : ℚ) _ (2 ^ x.exponent), hratio]
    ring
  obtain ⟨hhigh, hlow, hends⟩ := bounds_of_holds hpos hunit hsteps h
  have hscaled : n * 10 ^ grid * scale = q * 2 ^ k := by
    rw [← hq, mul_assoc, Double.zpow_mul_scale, hexponent, sub_add_cancel, zpow_natCast]
  simp only [narrowBelow_iff hexponent] at hlow
  rw [hscaled]
  exact nearest_of_bounds hpos hm hk hhigh hlow hends

theorem exact_value (x : Magnitude) : x.exact.value = x.mantissa * 2 ^ x.exponent := by
  rw [exact, Digits.value]
  cases x.exponent with
  | ofNat e =>
      simp [Nat.shiftLeft_eq]
  | negSucc e =>
      have hten : (10 : ℚ) ^ (e + 1) = 5 ^ (e + 1) * 2 ^ (e + 1) := by rw [← mul_pow]; norm_num
      simp only [zpow_negSucc, hten, Nat.cast_mul, Nat.pow_eq, Nat.cast_pow, Nat.cast_ofNat]
      field_simp

theorem holds_of_onGrid {tie : Tie} (h : x.onGrid tie grid = some n) :
    x.holds (x.inUnits grid) n = true := by
  obtain ⟨below, hbelow⟩ : ∃ below, below = (x.inUnits grid).num / (x.inUnits grid).den := ⟨_, rfl⟩
  simp only [onGrid, ← hbelow] at h
  split at h
  · cases h
  · rename_i htest _
    cases h
    exact htest
  · rename_i _ htest
    cases h
    exact htest
  · rename_i htest htestAbove
    split at h <;> cases h
    · exact htest
    · exact htestAbove
    · exact htestAbove
    · split_ifs
      · exact htest
      · exact htestAbove

/-- The shortest decimal of a double is rounded to the double, also without its trailing zeros. -/
theorem nearest_shortest (hexponent : x.exponent = k - 1074) (hpos : 0 < x.mantissa)
    (hm : x.mantissa < 2 ^ 53) (hk : k = 0 ∨ 2 ^ 52 ≤ x.mantissa) (tie : Tie) :
    nearest ((x.shortest tie).strip.value * scale) = k * 2 ^ 52 + x.mantissa := by
  rw [Digits.strip_value, shortest]
  cases hfound : (List.range 17).findSome? fun n =>
      let grid := x.wholeDigits - ((n : ℕ) + 1)
      (x.onGrid tie grid).map fun digits => (⟨digits, grid⟩ : Digits) with
  | none =>
      rw [Option.getD_none, exact_value, mul_assoc, Double.zpow_mul_scale, hexponent,
        sub_add_cancel, zpow_natCast, Double.nearest_eq (Double.inBinade_place hm hk),
        mul_div_cancel_right₀ _ (by positivity), Double.roundEven_natCast]
  | some d =>
      obtain ⟨i, -, hi⟩ := List.exists_of_findSome?_eq_some hfound
      obtain ⟨digits, hdigits, rfl⟩ := Option.map_eq_some_iff.mp hi
      exact nearest_of_holds hexponent hpos hm hk (holds_of_onGrid hdigits)

theorem digits_shortest_pos (hexponent : x.exponent = k - 1074) (hpos : 0 < x.mantissa)
    (hm : x.mantissa < 2 ^ 53) (hk : k = 0 ∨ 2 ^ 52 ≤ x.mantissa) (tie : Tie) :
    0 < (x.shortest tie).strip.digits := by
  by_contra! h
  have hplace := nearest_shortest hexponent hpos hm hk tie
  rw [Digits.value, Nat.le_zero.mp h, Nat.cast_zero, zero_mul, zero_mul,
    Double.nearest_zero] at hplace
  omega

end Magnitude

end Decimal

end Raceway
