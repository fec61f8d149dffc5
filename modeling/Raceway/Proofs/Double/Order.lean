import Raceway.Proofs.Double.Arithmetic
/-!
# The order of doubles

Doubles that are numbers are ordered by their ranks, and finite ones by their values.  An
operation on finite doubles has the rank of the exact result, rounded, so results are in the order
of the exact ones.
-/

namespace Raceway.Double

open Float.Model (Format UnpackedFloat)
open Float.Model.UnpackedFloat

/-- The place of a double on the scale, below zero for a negative one. -/
def rank (x : Float) : ℤ :=
  rankOf x.toModel.unpack

/-- The value of a finite double. -/
def value (x : Float) : ℚ :=
  valueOf x.toModel.unpack

/-- The rank of the double nearest to a number, or of infinity. -/
def round (q : ℚ) : ℤ :=
  clamp (signedNearest (q * scale))

/-! ## By parts -/

theorem isNaN_eq (x : Float) : x.isNaN = x.toModel.unpack.isNaN :=
  rfl

theorem isFinite_eq (x : Float) : x.isFinite = x.toModel.unpack.isFinite :=
  rfl

theorem unpack_add (x y : Float) : (x + y).toModel.unpack = unpack Format.binary64
    (pack Format.binary64 (.add Format.binary64 x.toModel.unpack y.toModel.unpack)) :=
  rfl

theorem unpack_sub (x y : Float) : (x - y).toModel.unpack = unpack Format.binary64
    (pack Format.binary64 (.sub Format.binary64 x.toModel.unpack y.toModel.unpack)) :=
  rfl

theorem unpack_mul (x y : Float) : (x * y).toModel.unpack = unpack Format.binary64
    (pack Format.binary64 (.mul Format.binary64 x.toModel.unpack y.toModel.unpack)) :=
  rfl

theorem unpack_div (x y : Float) : (x / y).toModel.unpack = unpack Format.binary64
    (pack Format.binary64 (.div Format.binary64 x.toModel.unpack y.toModel.unpack)) :=
  rfl

theorem isNaN_of_isFinite {x : Float} (hx : x.isFinite = true) : x.isNaN = false := by
  rw [isFinite_eq] at hx
  rw [isNaN_eq]
  cases hunpack : x.toModel.unpack with
  | notANumber =>
      rw [hunpack] at hx
      cases hx
  | _ => rfl

theorem canonical (x : Float) : Canonical x.toModel.unpack ∧ Fits x.toModel.unpack :=
  canonical_unpack x.toModel.toBits.toBitVec

theorem compare_eq {x y : Float} (hx : x.isNaN = false) (hy : y.isNaN = false) :
    x.toModel.unpack.compare y.toModel.unpack = some (compare (rank x) (rank y)) :=
  compare_rankOf (canonical x) (canonical y) hx hy

theorem compare_eq_none {x y : Float} (h : ¬(x.isNaN = false ∧ y.isNaN = false)) :
    x.toModel.unpack.compare y.toModel.unpack = none := by
  rcases not_and_or.mp h with h | h
  · rw [isNaN_iff.mp (Bool.eq_true_of_not_eq_false h)]
    rfl
  · rw [isNaN_iff.mp (Bool.eq_true_of_not_eq_false h)]
    cases x.toModel.unpack <;> rfl

theorem le_iff {x y : Float} :
    x ≤ y ↔ x.isNaN = false ∧ y.isNaN = false ∧ rank x ≤ rank y := by
  have hle : x ≤ y ↔ (x.toModel.unpack.compare y.toModel.unpack).any Ordering.isLE = true :=
    decide_eq_true_iff
  rw [hle, ← and_assoc]
  by_cases h : x.isNaN = false ∧ y.isNaN = false
  · rw [compare_eq h.1 h.2, Option.any_some, and_iff_right h]
    exact Int.isLE_compare
  · rw [compare_eq_none h]
    exact iff_of_false Bool.false_ne_true fun hle => h hle.1

theorem lt_iff {x y : Float} :
    x < y ↔ x.isNaN = false ∧ y.isNaN = false ∧ rank x < rank y := by
  have hlt : x < y ↔ (x.toModel.unpack.compare y.toModel.unpack == some .lt) = true :=
    decide_eq_true_iff
  rw [hlt, ← and_assoc]
  by_cases h : x.isNaN = false ∧ y.isNaN = false
  · rw [compare_eq h.1 h.2, and_iff_right h, beq_iff_eq, Option.some_inj]
    exact compare_lt_iff_lt
  · rw [compare_eq_none h]
    exact iff_of_false Bool.false_ne_true fun hlt => h hlt.1

theorem beq_iff {x y : Float} :
    (x == y) = true ↔ x.isNaN = false ∧ y.isNaN = false ∧ rank x = rank y := by
  have hbeq : (x == y) = (x.toModel.unpack.compare y.toModel.unpack == some .eq) := rfl
  rw [hbeq, ← and_assoc]
  by_cases h : x.isNaN = false ∧ y.isNaN = false
  · rw [compare_eq h.1 h.2, and_iff_right h, beq_iff_eq, Option.some_inj]
    exact compare_eq_iff_eq
  · rw [compare_eq_none h]
    exact iff_of_false Bool.false_ne_true fun heq => h ⟨heq.1.1, heq.1.2⟩

variable {x y z a c : Float}

theorem rank_le_rank (h : x ≤ y) : rank x ≤ rank y :=
  (le_iff.mp h).2.2

theorem rank_lt_rank (h : x < y) : rank x < rank y :=
  (lt_iff.mp h).2.2

theorem le_refl (hx : x.isNaN = false) : x ≤ x :=
  le_iff.mpr ⟨hx, hx, Int.le_refl _⟩

theorem le_trans (h : x ≤ y) (h' : y ≤ z) : x ≤ z := by
  rw [le_iff] at *
  exact ⟨h.1, h'.2.1, h.2.2.trans h'.2.2⟩

theorem not_lt_of_le (h : x ≤ y) : ¬y < x := by
  rw [le_iff] at h
  rw [lt_iff]
  omega

theorem le_of_not_lt (hx : x.isNaN = false) (hy : y.isNaN = false) (h : ¬y < x) : x ≤ y := by
  rw [lt_iff] at h
  rw [le_iff]
  exact ⟨hx, hy, by by_contra! hlt; exact h ⟨hy, hx, hlt⟩⟩

theorem le_of_lt (h : x < y) : x ≤ y := by
  rw [lt_iff] at h
  exact le_iff.mpr ⟨h.1, h.2.1, h.2.2.le⟩

theorem lt_of_not_le (hx : x.isNaN = false) (hy : y.isNaN = false) (h : ¬x ≤ y) : y < x := by
  by_contra hlt
  exact h (le_of_not_lt hx hy hlt)

theorem lt_trans (h : x < y) (h' : y < z) : x < z := by
  rw [lt_iff] at *
  exact ⟨h.1, h'.2.1, h.2.2.trans h'.2.2⟩

theorem lt_of_lt_of_le (h : x < y) (h' : y ≤ z) : x < z := by
  rw [lt_iff] at *
  rw [le_iff] at h'
  exact ⟨h.1, h'.2.1, h.2.2.trans_le h'.2.2⟩

theorem rank_bounds (x : Float) : -top ≤ rank x ∧ rank x ≤ top :=
  rankOf_bounds (canonical x)

theorem rank_bounds_of_isFinite (hx : x.isFinite = true) : -top < rank x ∧ rank x < top :=
  rankOf_bounds_of_isFinite (canonical x) hx

theorem eq_infinity (hx : x.isNaN = false) (hfinite : x.isFinite = false) :
    ∃ sign, x.toModel.unpack = .infinity sign := by
  rw [isNaN_eq] at hx
  rw [isFinite_eq] at hfinite
  cases hunpack : x.toModel.unpack with
  | infinity sign => exact ⟨sign, rfl⟩
  | notANumber =>
      rw [hunpack] at hx
      cases hx
  | _ =>
      rw [hunpack] at hfinite
      cases hfinite

theorem rank_infinity {sign : Sign} (hx : x.toModel.unpack = .infinity sign) :
    rank x = sign.apply top := by
  rw [rank, hx]
  rfl

/-! ## Values -/

theorem value_mul_scale (hx : x.isFinite = true) : value x * scale = signedUnits (rank x) :=
  valueOf_mul_scale (canonical x).1 hx

theorem round_mono : Monotone round := by
  intro p q h
  exact clamp_mono (signedNearest_mono (mul_le_mul_of_nonneg_right h scale_pos.le))

theorem round_value (hx : x.isFinite = true) : round (value x) = rank x := by
  have hrank : rank x = signedNearest (value x * scale) :=
    (Rounds.of_canonical (canonical x).1 hx).rank_eq
  rw [round, ← hrank]
  exact clamp_of_bounds (rank_bounds x).1 (rank_bounds x).2

theorem value_le_value_iff (hx : x.isFinite = true) (hy : y.isFinite = true) :
    value x ≤ value y ↔ rank x ≤ rank y := by
  constructor
  · intro h
    rw [← round_value hx, ← round_value hy]
    exact round_mono h
  · intro h
    rw [← mul_le_mul_iff_left₀ scale_pos, value_mul_scale hx, value_mul_scale hy]
    exact_mod_cast signedUnits_mono h

theorem le_iff_value_le (hx : x.isFinite = true) (hy : y.isFinite = true) :
    x ≤ y ↔ value x ≤ value y := by
  rw [value_le_value_iff hx hy, le_iff, and_iff_right (isNaN_of_isFinite hx),
    and_iff_right (isNaN_of_isFinite hy)]

theorem value_eq_zero (hx : x.isFinite = true) (hrank : rank x = 0) : value x = 0 := by
  have hvalue := value_mul_scale hx
  rw [hrank, signedUnits, Int.sign_zero, zero_mul, Int.cast_zero] at hvalue
  exact (mul_eq_zero.mp hvalue).resolve_right scale_pos.ne'

theorem value_eq_iff (hx : x.isFinite = true) (hy : y.isFinite = true) :
    value x = value y ↔ rank x = rank y := by
  rw [le_antisymm_iff, le_antisymm_iff, value_le_value_iff hx hy, value_le_value_iff hy hx]

theorem value_lt_value_iff (hx : x.isFinite = true) (hy : y.isFinite = true) :
    value x < value y ↔ rank x < rank y := by
  rw [← not_le, ← not_le, value_le_value_iff hy hx]

theorem value_nonneg_iff (hx : x.isFinite = true) : 0 ≤ value x ↔ 0 ≤ rank x := by
  have hfinite : (0 : Float).isFinite = true := rfl
  have hrank : rank 0 = 0 := rfl
  have h := value_le_value_iff hfinite hx
  rwa [value_eq_zero hfinite hrank, hrank] at h

theorem pos_iff (hx : x.isFinite = true) : 0 < x ↔ 0 < value x := by
  have hfinite : (0 : Float).isFinite = true := rfl
  have hrank : rank 0 = 0 := rfl
  have h := value_lt_value_iff hfinite hx
  rw [value_eq_zero hfinite hrank] at h
  rw [h, lt_iff, and_iff_right (isNaN_of_isFinite hfinite), and_iff_right (isNaN_of_isFinite hx)]

theorem exists_units_mul (hx : x.isFinite = true) (hnonneg : 0 ≤ value x) (n : ℕ) :
    ∃ m : ℕ, (n : ℚ) * value x * scale = m := by
  obtain ⟨r, hr⟩ := Int.eq_ofNat_of_zero_le ((value_nonneg_iff hx).mp hnonneg)
  refine ⟨n * units r, ?_⟩
  rw [mul_assoc, value_mul_scale hx, hr, signedUnits_natCast, Int.cast_natCast, Nat.cast_mul]

/-- Rounding adds at most one part in `2 ^ 53` to a whole number of least positive doubles, and to
a number that is at least 1. -/
theorem value_le_of_rank {q : ℚ} (hx : x.isFinite = true) (hrank : rank x = round q)
    (hq : 0 ≤ q) (h : (∃ n : ℕ, q * scale = n) ∨ 1 ≤ q) :
    value x ≤ q * (1 + 1 / 2 ^ 53) := by
  have hscaled : 0 ≤ q * scale := mul_nonneg hq scale_pos.le
  have hlarge : 1 ≤ q → 2 ^ 52 ≤ q * scale := fun hone => by
    calc (2 : ℚ) ^ 52 ≤ scale := by
          rw [scale, ← zpow_natCast]
          exact zpow_le_zpow_right₀ one_le_two (by decide)
      _ ≤ q * scale := le_mul_of_one_le_left scale_pos.le hone
  rw [← mul_le_mul_iff_left₀ scale_pos, value_mul_scale hx, mul_right_comm]
  calc (signedUnits (rank x) : ℚ) ≤ signedUnits (nearest (q * scale) : ℤ) := by
        have hclamp : clamp (nearest (q * scale) : ℤ) ≤ (nearest (q * scale) : ℤ) := by
          have htop := top_pos
          unfold clamp
          omega
        rw [hrank, round, signedNearest_of_nonneg hscaled]
        exact_mod_cast signedUnits_mono hclamp
    _ = (units (nearest (q * scale)) : ℚ) := by rw [signedUnits_natCast, Int.cast_natCast]
    _ ≤ q * scale * (1 + 1 / 2 ^ 53) := units_nearest_le hscaled (h.imp_right hlarge)

/-! ## Results -/

theorem of_rounds {f : UnpackedFloat} {q : ℚ} (hf : Rounds f q) :
    (Float.ofModel (.pack f)).isNaN = false ∧ rank (Float.ofModel (.pack f)) = round q := by
  obtain ⟨hnumber, hrank⟩ := unpack_pack hf.canonical hf.number
  refine ⟨hnumber, ?_⟩
  rw [round, ← hf.rank_eq]
  exact hrank

theorem add_spec (hx : x.isFinite = true) (hy : y.isFinite = true) :
    (x + y).isNaN = false ∧ rank (x + y) = round (value x + value y) :=
  of_rounds (rounds_add (canonical x).1 (canonical y).1 hx hy)

theorem sub_spec (hx : x.isFinite = true) (hy : y.isFinite = true) :
    (x - y).isNaN = false ∧ rank (x - y) = round (value x - value y) :=
  of_rounds (rounds_sub (canonical x).1 (canonical y).1 hx hy)

theorem mul_spec (hx : x.isFinite = true) (hy : y.isFinite = true) :
    (x * y).isNaN = false ∧ rank (x * y) = round (value x * value y) :=
  of_rounds (rounds_mul (canonical x).1 (canonical y).1 hx hy)

theorem isFinite_of_rank (hx : x.isNaN = false) (hlow : -top < rank x) (hhigh : rank x < top) :
    x.isFinite = true := by
  by_contra h
  obtain ⟨sign, hsign⟩ := eq_infinity hx (Bool.eq_false_iff.mpr h)
  have hrank := rank_infinity hsign
  cases sign <;> simp only [Sign.apply] at hrank <;> omega

theorem isFinite_of_rank_eq (hx : x.isNaN = false) (hy : y.isFinite = true)
    (h : rank x = rank y) : x.isFinite = true := by
  have hbounds := rank_bounds_of_isFinite hy
  exact isFinite_of_rank hx (by omega) (by omega)

theorem exists_place_natCast {n : ℕ} (hn : n < 2 ^ 53) :
    ∃ p < top, (n : ℚ) * scale = units p := by
  rcases n.eq_zero_or_pos with rfl | hpos
  · exact ⟨0, top_pos, by rw [Nat.cast_zero, zero_mul, units_zero, Nat.cast_zero]⟩
  · have hlog : n.log2 < 53 := (Nat.log2_lt hpos.ne').mpr hn
    have hlow : 2 ^ 52 ≤ n * 2 ^ (52 - n.log2) := by
      calc 2 ^ 52 = 2 ^ n.log2 * 2 ^ (52 - n.log2) := by rw [← pow_add]; congr 1; omega
        _ ≤ n * 2 ^ (52 - n.log2) := Nat.mul_le_mul_right _ (Nat.log2_self_le hpos.ne')
    have hhigh : n * 2 ^ (52 - n.log2) < 2 ^ 53 := by
      calc n * 2 ^ (52 - n.log2) < 2 ^ (n.log2 + 1) * 2 ^ (52 - n.log2) :=
            Nat.mul_lt_mul_of_pos_right Nat.lt_log2_self (by positivity)
        _ = 2 ^ 53 := by rw [← pow_add]; congr 1; omega
    refine ⟨(1022 + n.log2) * 2 ^ 52 + n * 2 ^ (52 - n.log2), ?_, ?_⟩
    · unfold top
      omega
    · rw [units_place hhigh (Or.inr hlow)]
      push_cast
      rw [mul_assoc, ← pow_add, scale, ← zpow_natCast]
      congr 2
      omega

theorem round_natCast_lt {n : ℕ} (hn : n < 2 ^ 53) : round n < top := by
  obtain ⟨p, hp, hplace⟩ := exists_place_natCast hn
  rw [round, hplace, signedNearest_of_nonneg (Nat.cast_nonneg _), nearest_units,
    clamp_of_bounds (by omega) (by omega)]
  exact_mod_cast hp

theorem value_of_whole {n : ℤ} (hn : n.natAbs < 2 ^ 53) (hx : x.isNaN = false)
    (hrank : rank x = round n) : x.isFinite = true ∧ value x = n := by
  obtain ⟨r, hr, hplace⟩ : ∃ r : ℤ, r.natAbs < top ∧ (n : ℚ) * scale = signedUnits r := by
    obtain ⟨p, hp, hplace⟩ := exists_place_natCast hn
    rcases n.natAbs_eq with hsign | hsign
    · refine ⟨p, by omega, ?_⟩
      rw [hsign, Int.cast_natCast, hplace, signedUnits_natCast, Int.cast_natCast]
    · refine ⟨-p, by omega, ?_⟩
      rw [hsign, Int.cast_neg, Int.cast_natCast, neg_mul, hplace, signedUnits_neg,
        signedUnits_natCast, Int.cast_neg, Int.cast_natCast]
  rw [round, hplace, signedNearest_signedUnits, clamp_of_bounds (by omega) (by omega)] at hrank
  have hfinite := isFinite_of_rank hx (by omega) (by omega)
  refine ⟨hfinite, mul_right_cancel₀ scale_pos.ne' ?_⟩
  rw [value_mul_scale hfinite, hrank, hplace]

theorem ofWord_spec (n : UInt32) :
    (UInt32.toFloat n).isFinite = true ∧ value (UInt32.toFloat n) = n.toNat := by
  have hrounds := rounds_normalize (n.toNat : ℤ) 0 .positive
  rw [zpow_zero, mul_one] at hrounds
  obtain ⟨hnan, hrank⟩ : (UInt32.toFloat n).isNaN = false ∧
      rank (UInt32.toFloat n) = round (n.toNat : ℤ) := of_rounds hrounds
  have hlt : (n.toNat : ℤ).natAbs < 2 ^ 53 := n.toNat_lt.trans (by decide)
  obtain ⟨hfinite, hvalue⟩ := value_of_whole hlt hnan hrank
  exact ⟨hfinite, hvalue.trans (Int.cast_natCast _)⟩

theorem one_spec : (1 : Float).isFinite = true ∧ value 1 = 1 := by
  have hword := ofWord_spec 1
  rwa [UInt32.toNat_one, Nat.cast_one] at hword

/-! ## Order of results -/

theorem add_infinite (ha : a.isFinite = true) (hx : x.isNaN = false)
    (hinfinite : x.isFinite = false) : (a + x).isNaN = false ∧ rank (a + x) = rank x := by
  obtain ⟨sign, hsign⟩ := eq_infinity hx hinfinite
  have hadd : UnpackedFloat.add Format.binary64 a.toModel.unpack x.toModel.unpack =
      .infinity sign := by
    rw [isFinite_eq] at ha
    rw [hsign]
    cases hunpack : a.toModel.unpack <;> rw [hunpack] at ha <;> first | rfl | cases ha
  have hsum : (a + x).toModel.unpack = .infinity sign := by
    rw [unpack_add, hadd, unpack_pack_infinity]
  refine ⟨?_, (rank_infinity hsum).trans (rank_infinity hsign).symm⟩
  rw [isNaN_eq, hsum]
  rfl

theorem rank_of_infinite (hx : x.isNaN = false) (hinfinite : x.isFinite = false) :
    rank x = -top ∨ rank x = top := by
  obtain ⟨sign, hsign⟩ := eq_infinity hx hinfinite
  rw [rank_infinity hsign]
  cases sign
  · exact Or.inl rfl
  · exact Or.inr rfl

/-- An operation keeps the order if it rounds a monotone function of finite doubles and leaves
infinite ones in their places. -/
theorem mono_of_spec {f : Float → Float} {g : ℚ → ℚ} (hg : Monotone g)
    (hfinite : ∀ x : Float, x.isFinite = true →
      (f x).isNaN = false ∧ rank (f x) = round (g (value x)))
    (hinfinite : ∀ x : Float, x.isNaN = false → x.isFinite = false →
      (f x).isNaN = false ∧ rank (f x) = rank x)
    (h : x ≤ y) : f x ≤ f y := by
  obtain ⟨hx, hy, hrank⟩ := le_iff.mp h
  have hbounds := rank_bounds (f x)
  have hbounds' := rank_bounds (f y)
  cases hxfinite : x.isFinite with
  | true =>
      obtain ⟨hfx, hfxrank⟩ := hfinite x hxfinite
      have hfin := rank_bounds_of_isFinite hxfinite
      cases hyfinite : y.isFinite with
      | true =>
          obtain ⟨hfy, hfyrank⟩ := hfinite y hyfinite
          refine le_iff.mpr ⟨hfx, hfy, ?_⟩
          rw [hfxrank, hfyrank]
          exact round_mono (hg ((value_le_value_iff hxfinite hyfinite).mpr hrank))
      | false =>
          obtain ⟨hfy, hfyrank⟩ := hinfinite y hy hyfinite
          refine le_iff.mpr ⟨hfx, hfy, ?_⟩
          rcases rank_of_infinite hy hyfinite with hinf | hinf <;> omega
  | false =>
      obtain ⟨hfx, hfxrank⟩ := hinfinite x hx hxfinite
      rcases rank_of_infinite hx hxfinite with hinf | hinf
      · have hfy : (f y).isNaN = false := by
          cases hyfinite : y.isFinite with
          | true => exact (hfinite y hyfinite).1
          | false => exact (hinfinite y hy hyfinite).1
        exact le_iff.mpr ⟨hfx, hfy, by omega⟩
      · -- Only infinity comes after infinity.
        have hyfinite : y.isFinite = false := by
          by_contra hne
          have hfin := rank_bounds_of_isFinite (Bool.not_eq_false _ |>.mp hne)
          omega
        obtain ⟨hfy, hfyrank⟩ := hinfinite y hy hyfinite
        exact le_iff.mpr ⟨hfx, hfy, by omega⟩

theorem sum_mono (ha : a.isFinite = true) (h : x ≤ y) : a + x ≤ a + y :=
  mono_of_spec (f := (a + ·)) (g := (value a + ·))
    (fun _ _ hle => add_le_add_right hle (value a))
    (fun _ hx => add_spec ha hx) (fun _ hx hinfinite => add_infinite ha hx hinfinite) h

theorem sum_comm (x y : Float) : x + y = y + x := by
  have hsum (x y : Float) : x + y =
      .ofModel (.pack (UnpackedFloat.add Format.binary64 x.toModel.unpack y.toModel.unpack)) := rfl
  rw [hsum, hsum, add_symm]

theorem product_mono (hc : c.isFinite = true) (hsign : 0 ≤ value c) (hx : x.isFinite = true)
    (hy : y.isFinite = true) (h : value x ≤ value y) : x * c ≤ y * c := by
  obtain ⟨hnan, hrank⟩ := mul_spec hx hc
  obtain ⟨hnan', hrank'⟩ := mul_spec hy hc
  refine le_iff.mpr ⟨hnan, hnan', ?_⟩
  rw [hrank, hrank']
  exact round_mono (mul_le_mul_of_nonneg_right h hsign)

/-! ## Finite results -/

theorem of_packed_finite {f : UnpackedFloat} {P : Prop}
    (hcases : P ∨ f = .notANumber ∨ ∃ sign, f = .infinity sign)
    (h : (unpack Format.binary64 (pack Format.binary64 f)).isFinite = true) : P := by
  rcases hcases with hP | rfl | ⟨sign, rfl⟩
  · exact hP
  · rw [unpack_pack_notANumber] at h
    cases h
  · rw [unpack_pack_infinity] at h
    cases h

theorem isFinite_of_add (h : (x + y).isFinite = true) :
    x.isFinite = true ∧ y.isFinite = true :=
  of_packed_finite (add_cases x.toModel.unpack y.toModel.unpack) h

theorem isFinite_of_sub (h : (x - y).isFinite = true) :
    x.isFinite = true ∧ y.isFinite = true :=
  of_packed_finite (sub_cases x.toModel.unpack y.toModel.unpack) h

/-! ## Differences -/

/-- The exact difference of two doubles is a whole number of least positive doubles, so it is not
lost by rounding. -/
theorem le_of_sub_nonneg (hx : x.isFinite = true) (hy : y.isFinite = true)
    (h : 0 ≤ rank (x - y)) : rank y ≤ rank x := by
  rw [← value_le_value_iff hy hx]
  by_contra! hlt
  have hwhole : (value x - value y) * scale =
      ((signedUnits (rank x) - signedUnits (rank y) : ℤ) : ℚ) := by
    rw [sub_mul, value_mul_scale hx, value_mul_scale hy, Int.cast_sub]
  have hneg : (value x - value y) * scale < 0 :=
    mul_neg_of_neg_of_pos (sub_neg_of_lt hlt) scale_pos
  rw [hwhole] at hneg
  have hle : signedUnits (rank x) - signedUnits (rank y) ≤ signedUnits (-1) := by
    have hone : signedUnits (-1) = -1 := rfl
    rw [hone]
    have : signedUnits (rank x) - signedUnits (rank y) < 0 := by exact_mod_cast hneg
    omega
  have hround : round (value x - value y) ≤ clamp (-1) := by
    rw [round, hwhole, ← signedNearest_signedUnits (-1)]
    exact clamp_mono (signedNearest_mono (by exact_mod_cast hle))
  rw [(sub_spec hx hy).2] at h
  have hclamp : clamp (-1) = -1 := rfl
  omega

/-! ## Nothing -/

theorem rank_eq_zero_iff :
    rank x = 0 ↔ x.toModel.unpack = .notANumber ∨ ∃ sign, x.toModel.unpack = .zero sign := by
  have hcanonical := canonical x
  have htop := top_pos
  unfold rank
  cases hunpack : x.toModel.unpack with
  | notANumber => exact iff_of_true rfl (Or.inl rfl)
  | zero sign => exact iff_of_true rfl (Or.inr ⟨sign, rfl⟩)
  | infinity sign =>
      refine iff_of_false ?_ (by simp)
      cases sign <;> simp only [rankOf, Sign.apply] <;> omega
  | finite sign m e hm =>
      rw [hunpack] at hcanonical
      have hplace := place_of_finite hcanonical.1 hcanonical.2
      refine iff_of_false ?_ (by simp)
      cases sign <;> simp only [rankOf, Sign.apply] <;> omega

@[simp] theorem round_zero : round 0 = 0 := by
  rw [round, zero_mul, signedNearest_of_nonneg le_rfl, nearest_zero]
  rfl

theorem rank_sub_self (hx : x.isFinite = true) : rank (x - x) = 0 := by
  rw [(sub_spec hx hx).2, sub_self, round_zero]

/-- A product with nothing is nothing: infinity times zero is no number. -/
theorem rank_mul_eq_zero (x : Float) (hy : rank y = 0) : rank (x * y) = 0 := by
  rw [rank_eq_zero_iff, unpack_mul]
  rcases rank_eq_zero_iff.mp hy with hy | ⟨sign, hy⟩ <;> rw [hy]
  · left
    cases x.toModel.unpack <;> exact unpack_pack_notANumber
  · cases x.toModel.unpack with
    | notANumber => exact Or.inl unpack_pack_notANumber
    | infinity => exact Or.inl unpack_pack_notANumber
    | zero s => exact Or.inr ⟨_, unpack_pack_zero _⟩
    | finite s m e hm => exact Or.inr ⟨_, unpack_pack_zero _⟩

theorem rank_sub_eq_zero (hx : rank x = 0) (hy : rank y = 0) : rank (x - y) = 0 := by
  rw [rank_eq_zero_iff, unpack_sub]
  rcases rank_eq_zero_iff.mp hx with hx | ⟨s, hx⟩ <;>
    rcases rank_eq_zero_iff.mp hy with hy | ⟨t, hy⟩ <;> rw [hx, hy]
  · exact Or.inl unpack_pack_notANumber
  · exact Or.inl unpack_pack_notANumber
  · exact Or.inl unpack_pack_notANumber
  · right
    cases s <;> cases t <;> exact ⟨_, unpack_pack_zero _⟩

/-- A double of rank 0 equals zero, or it is no number and nothing can be said of its quotients. -/
theorem beq_zero_or (hx : rank x = 0) :
    (x == 0) = true ∨ ∀ y : Float, (y / x).isNaN = true := by
  rcases rank_eq_zero_iff.mp hx with hx | ⟨s, hx⟩
  · right
    intro y
    have hquotient : UnpackedFloat.div Format.binary64 y.toModel.unpack .notANumber =
        .notANumber := by
      cases y.toModel.unpack <;> rfl
    rw [isNaN_eq, unpack_div, hx, hquotient, unpack_pack_notANumber]
    rfl
  · left
    have hbeq : (x == 0) = UnpackedFloat.beq x.toModel.unpack (0 : Float).toModel.unpack := rfl
    rw [hbeq, hx]
    rfl

/-! ## Neighbours -/

/-- The double at a place of the scale, infinity beyond its ends. -/
def ofRank (r : ℤ) : Float :=
  .ofModel (.pack (UnpackedFloat.normalize Format.binary64 (signedUnits r) (-1074) .positive))

/-- The next smaller double. -/
def before (x : Float) : Float :=
  ofRank (rank x - 1)

/-- The next larger double. -/
def after (x : Float) : Float :=
  ofRank (rank x + 1)

theorem ofRank_spec (r : ℤ) : (ofRank r).isNaN = false ∧ rank (ofRank r) = clamp r := by
  obtain ⟨hnan, hrank⟩ := of_rounds (rounds_normalize (signedUnits r) (-1074) .positive)
  refine ⟨hnan, hrank.trans ?_⟩
  rw [round, mul_assoc, zpow_mul_scale, neg_add_cancel, zpow_zero, mul_one,
    signedNearest_signedUnits]

theorem before_spec (x : Float) :
    (before x).isNaN = false ∧ rank (before x) = max (-top : ℤ) (rank x - 1) := by
  obtain ⟨hnan, hrank⟩ := ofRank_spec (rank x - 1)
  have hbounds := rank_bounds x
  refine ⟨hnan, hrank.trans ?_⟩
  unfold clamp
  omega

theorem after_spec (x : Float) :
    (after x).isNaN = false ∧ rank (after x) = min (top : ℤ) (rank x + 1) := by
  obtain ⟨hnan, hrank⟩ := ofRank_spec (rank x + 1)
  have hbounds := rank_bounds x
  refine ⟨hnan, hrank.trans ?_⟩
  unfold clamp
  omega

theorem le_before (h : x < y) : x ≤ before y := by
  obtain ⟨hx, hy, hlt⟩ := lt_iff.mp h
  obtain ⟨hnan, hrank⟩ := before_spec y
  exact le_iff.mpr ⟨hx, hnan, by omega⟩

theorem after_le (h : x < y) : after x ≤ y := by
  obtain ⟨hx, hy, hlt⟩ := lt_iff.mp h
  obtain ⟨hnan, hrank⟩ := after_spec x
  exact le_iff.mpr ⟨hnan, hy, by omega⟩

theorem before_lt (hx : x.isFinite = true) : before x < x := by
  obtain ⟨hnan, hrank⟩ := before_spec x
  have hbounds := rank_bounds_of_isFinite hx
  exact lt_iff.mpr ⟨hnan, isNaN_of_isFinite hx, by omega⟩

end Raceway.Double
