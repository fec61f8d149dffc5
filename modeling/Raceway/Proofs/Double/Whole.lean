import Raceway.Coord
import Raceway.Proofs.Double.Quotient
/-!
# Whole parts of doubles

The floor of a finite double is a double, and it is the exact floor.  Where it fits into a word
that is what the double is converted to.
-/

namespace Raceway

@[simp]
theorem toNat_ofNatClamp32 (n : Nat) : (UInt32.ofNatClamp n).toNat = min n (2 ^ 32 - 1) := by
  rcases Nat.lt_or_ge n UInt32.size with h | h
  · rw [UInt32.toNat_ofNatClamp_of_lt h]
    exact (min_eq_left (Nat.le_sub_one_of_lt h)).symm
  · rw [UInt32.toNat_ofNatClamp_of_le h]
    exact (min_eq_right ((Nat.sub_le _ _).trans h)).symm

namespace Double

open Float.Model (Format UnpackedFloat)
open Float.Model.UnpackedFloat

variable {x y : Float}

theorem neg_spec (hx : x.isFinite = true) :
    (-x).isNaN = false ∧ rank (-x) = round (-value x) := by
  have hcanonical : Canonical x.toModel.unpack.neg := by
    have h := (canonical x).1
    cases hunpack : x.toModel.unpack <;> rw [hunpack] at h <;> exact h
  have hfinite : x.toModel.unpack.neg.isFinite = true := by
    rw [isFinite_eq] at hx
    cases hunpack : x.toModel.unpack <;> rw [hunpack] at hx <;> exact hx
  rw [value, ← valueOf_neg]
  exact of_rounds (.of_canonical hcanonical hfinite)

/-! ## Floors -/

theorem ofNatural_spec {m : ℕ} (hm : m < 2 ^ 53) :
    m.toUInt64.toFloat.isFinite = true ∧ value m.toUInt64.toFloat = m := by
  have hrounds := rounds_normalize (m.toUInt64.toNat : ℤ) 0 .positive
  rw [zpow_zero, mul_one] at hrounds
  obtain ⟨hnan, hrank⟩ : m.toUInt64.toFloat.isNaN = false ∧
      rank m.toUInt64.toFloat = round (m.toUInt64.toNat : ℤ) := of_rounds hrounds
  have hm64 : m.toUInt64.toNat = m :=
    UInt64.toNat_ofNat_of_lt' (hm.trans (by decide))
  rw [hm64] at hrank
  obtain ⟨hfinite, hvalue⟩ := value_of_whole (by omega) hnan hrank
  exact ⟨hfinite, hvalue.trans (Int.cast_natCast _)⟩

theorem ofWhole_spec {n : ℤ} (hn : n.natAbs < 2 ^ 53) :
    (ofWhole n).isFinite = true ∧ value (ofWhole n) = n := by
  cases n with
  | ofNat m => exact ofNatural_spec hn
  | negSucc m =>
      obtain ⟨hfinite, hvalue⟩ := ofNatural_spec (m := m + 1) hn
      obtain ⟨hnan, hrank⟩ := neg_spec hfinite
      have hneg : -((m + 1 : ℕ) : ℚ) = (Int.negSucc m : ℤ) := by
        rw [Int.cast_negSucc]
      rw [hvalue, hneg] at hrank
      exact value_of_whole hn hnan hrank

theorem wholePart_eq (sign : Sign) (m e : ℕ) :
    wholePart sign m (e + 1) = ⌊(sign.apply m : ℚ) * 2 ^ Int.negSucc e⌋ := by
  rw [wholePart, Nat.one_shiftLeft, zpow_negSucc, ← div_eq_mul_inv,
    ← Rat.floor_intCast_div_natCast, Nat.cast_pow, Nat.cast_ofNat]

theorem exists_whole_of_unpack
    (h : ∀ sign m e hm, x.toModel.unpack ≠ .finite sign m (.negSucc e) hm) :
    ∃ n : ℤ, value x = n := by
  rw [value]
  cases hunpack : x.toModel.unpack with
  | notANumber => exact ⟨0, rfl⟩
  | infinity sign => exact ⟨0, rfl⟩
  | zero sign => exact ⟨0, rfl⟩
  | finite sign m e hm =>
      cases e with
      | negSucc e => exact absurd hunpack (h sign m e hm)
      | ofNat e =>
          refine ⟨sign.apply m * 2 ^ e, ?_⟩
          rw [valueOf, Int.ofNat_eq_natCast, zpow_natCast]
          push_cast
          rfl

theorem floor_spec (hx : x.isFinite = true) :
    (floor x).isFinite = true ∧ value (floor x) = ⌊value x⌋ := by
  have hcanonical := (canonical x).1
  unfold floor
  rw [isFinite_eq] at hx
  split
  · rename_i sign m e hm hunpack
    rw [hunpack] at hcanonical
    obtain ⟨k, -, hlt, -⟩ := hcanonical
    have hbound : (wholePart sign m (e + 1)).natAbs < 2 ^ 53 := by
      have happly : (sign.apply (m : ℤ)).natAbs = m := by cases sign <;> simp [Sign.apply]
      calc (wholePart sign m (e + 1)).natAbs ≤ (sign.apply (m : ℤ)).natAbs :=
            Int.natAbs_ediv_le_natAbs _ _
        _ < 2 ^ 53 := by rwa [happly]
    have hvalue : value x = (sign.apply m : ℚ) * 2 ^ Int.negSucc e := by
      rw [value, hunpack, valueOf]
    rw [hvalue, ← wholePart_eq]
    exact ofWhole_spec hbound
  · rename_i hfraction
    obtain ⟨n, hn⟩ := exists_whole_of_unpack hfraction
    rw [hn, Int.floor_intCast]
    exact ⟨hx, rfl⟩

theorem floor_infinite (hx : x.isNaN = false) (hinfinite : x.isFinite = false) : floor x = x := by
  obtain ⟨sign, hsign⟩ := eq_infinity hx hinfinite
  rw [floor, hsign]

theorem isFinite_of_floor (hx : x.isNaN = false) (h : (floor x).isFinite = true) :
    x.isFinite = true := by
  by_contra hinfinite
  rw [floor_infinite hx (Bool.eq_false_iff.mpr hinfinite)] at h
  exact hinfinite h

theorem floor_mono (h : x ≤ y) : floor x ≤ floor y := by
  refine mono_of_spec (f := floor) (g := fun q => (⌊q⌋ : ℚ))
    (fun p q hle => Int.cast_le.mpr (Int.floor_mono hle)) (fun x hx => ?_)
    (fun x hx hinfinite => ?_) h
  · obtain ⟨hfinite, hvalue⟩ := floor_spec hx
    exact ⟨isNaN_of_isFinite hfinite, by rw [← hvalue, round_value hfinite]⟩
  · rw [floor_infinite hx hinfinite]
    exact ⟨hx, rfl⟩

/-! ## Words -/

theorem roundToInt_eq (sign : Sign) (m : ℕ) (e : ℤ) :
    roundToInt sign m e = sign.apply ⌊(m : ℚ) * 2 ^ e⌋₊ := by
  have hvalue := decreaseExponent_value m e 0
  rw [decreaseExponent_eq] at hvalue
  set n := m * 2 ^ (e - 0).toNat
  set d := e - (e - 0).toNat
  have hd : d ≤ 0 := by omega
  have hexponent : (2 : ℚ) ^ d = ((2 : ℚ) ^ (0 - d).toNat)⁻¹ := by
    rw [← zpow_natCast, ← zpow_neg]
    congr 1
    omega
  have hround : roundToInt sign m e = sign.apply
      ((ExtendedMantissa.ofMantissaAndAccuracy n .exact >>> (0 - d).toNat).mantissa) := by
    rw [roundToInt, decreaseExponent_eq]
    rfl
  rw [hround, ← ((represents_exact n).shiftRight _).floor_eq, ← hvalue, hexponent,
    div_eq_mul_inv]

theorem toWord_eq (hx : x.isFinite = true) : x.toUInt32 = UInt32.ofNatClamp ⌊value x⌋₊ := by
  have hword : x.toUInt32 = UInt32.ofNatClamp (x.toModel.unpack.toInt 0 (UInt32.size - 1)).toNat :=
    rfl
  rw [hword, value]
  rw [isFinite_eq] at hx
  cases hunpack : x.toModel.unpack with
  | notANumber => rw [hunpack] at hx; cases hx
  | infinity => rw [hunpack] at hx; cases hx
  | zero sign =>
      have hzero : valueOf (.zero sign) = 0 := rfl
      rw [hzero, Nat.floor_zero]
      rfl
  | finite sign m e hm =>
      have hpos : 0 < (m : ℚ) * 2 ^ e := mul_pos (by exact_mod_cast hm) (zpow_pos two_pos e)
      rw [UnpackedFloat.toInt, roundToInt_eq]
      cases sign with
      | negative =>
          have hvalue : valueOf (.finite .negative m e hm) = -((m : ℚ) * 2 ^ e) := by
            rw [valueOf, Sign.apply, Int.cast_neg, Int.cast_natCast, neg_mul]
          rw [hvalue, Nat.floor_of_nonpos (neg_nonpos.mpr hpos.le), Sign.apply,
            Int.toNat_of_nonpos (by omega)]
      | positive =>
          have hvalue : valueOf (.finite .positive m e hm) = (m : ℚ) * 2 ^ e := by
            rw [valueOf, Sign.apply, Int.cast_natCast]
          rw [hvalue, Sign.apply, Int.toNat_natCast]

theorem toWord_of_isNaN (hx : x.isNaN = true) : x.toUInt32 = 0 := by
  have hword : x.toUInt32 = UInt32.ofNatClamp (x.toModel.unpack.toInt 0 (UInt32.size - 1)).toNat :=
    rfl
  rw [hword, isNaN_iff.mp hx]
  rfl

theorem toWord_toNat (hx : x.isFinite = true) :
    x.toUInt32.toNat = min ⌊value x⌋₊ (2 ^ 32 - 1) := by
  rw [toWord_eq hx, toNat_ofNatClamp32]

/-- What is neither negative nor at least a word is cut down to a smaller word, also if it is no
number. -/
theorem toWord_lt {n : UInt32} (hn : 0 < n) (hlow : ¬x < 0) (hhigh : ¬n.toFloat ≤ x) :
    x.toUInt32 < n := by
  have hpos : 0 < n.toNat := UInt32.lt_iff_toNat_lt.mp hn
  cases hnan : x.isNaN with
  | true => rwa [toWord_of_isNaN hnan]
  | false =>
      obtain ⟨hfinite, hvalue⟩ := ofWord_spec n
      have hzero : rank 0 = 0 := rfl
      have htop := top_pos
      have hlow := rank_le_rank (le_of_not_lt rfl hnan hlow)
      have hhigh := rank_lt_rank (lt_of_not_le (isNaN_of_isFinite hfinite) hnan hhigh)
      have hbounds := rank_bounds_of_isFinite hfinite
      have hx := isFinite_of_rank hnan (by omega) (by omega)
      rw [← value_lt_value_iff hx hfinite, hvalue] at hhigh
      have hfloor : ⌊value x⌋₊ < n.toNat := (Nat.floor_lt' hpos.ne').mpr hhigh
      rw [UInt32.lt_iff_toNat_lt, toWord_toNat hx]
      omega

theorem toWord_le_value (hx : x.isFinite = true) (hpos : 0 < x.toUInt32.toNat) :
    (x.toUInt32.toNat : ℚ) ≤ value x := by
  rw [toWord_toNat hx] at hpos ⊢
  have hfloor : 0 < ⌊value x⌋₊ := hpos.trans_le (min_le_left _ _)
  calc ((min ⌊value x⌋₊ (2 ^ 32 - 1) : ℕ) : ℚ) ≤ (⌊value x⌋₊ : ℕ) :=
        Nat.cast_le.mpr (min_le_left _ _)
    _ ≤ value x := Nat.floor_le (Nat.pos_of_floor_pos hfloor).le

/-- Words cut down from two doubles have at most the product that the doubles are rounded to. -/
theorem toWord_mul_toWord_le {n : UInt32} (hx : x.isFinite = true) (hy : y.isFinite = true)
    (h : ¬n.toFloat < x * y) : x.toUInt32.toNat * y.toUInt32.toNat ≤ n.toNat := by
  obtain ⟨hfinite, hvalue⟩ := ofWord_spec n
  obtain ⟨hnan, hrank⟩ := mul_spec hx hy
  have hle := rank_le_rank (le_of_not_lt hnan (isNaN_of_isFinite hfinite) h)
  by_contra! hlt
  have hpos : 0 < x.toUInt32.toNat ∧ 0 < y.toUInt32.toNat := by
    constructor <;> refine Nat.pos_of_ne_zero fun hzero => ?_ <;> simp [hzero] at hlt
  have hxle := toWord_le_value hx hpos.1
  -- The next word is at most the exact product, and it is not rounded.
  have hnext : ((n.toNat + 1 : ℕ) : ℚ) ≤ value x * value y := by
    calc ((n.toNat + 1 : ℕ) : ℚ) ≤ (x.toUInt32.toNat * y.toUInt32.toNat : ℕ) := by
          exact_mod_cast hlt
      _ = (x.toUInt32.toNat : ℚ) * y.toUInt32.toNat := Nat.cast_mul _ _
      _ ≤ value x * value y := mul_le_mul hxle (toWord_le_value hy hpos.2)
          (Nat.cast_nonneg _) ((Nat.cast_nonneg _).trans hxle)
  have hround : round (n.toNat + 1 : ℕ) ≤ rank n.toFloat :=
    (hrank ▸ round_mono hnext).trans hle
  obtain ⟨hsucc, hsuccValue⟩ := ofNatural_spec (m := n.toNat + 1) (by have := n.toNat_lt; omega)
  rw [← hsuccValue, round_value hsucc, ← value_le_value_iff hsucc hfinite, hsuccValue, hvalue,
    Nat.cast_le] at hround
  omega

theorem toWord_of_value {n : ℕ} (hx : x.isFinite = true) (hvalue : value x = n) :
    x.toUInt32 = UInt32.ofNatClamp n := by
  rw [toWord_eq hx, hvalue, Nat.floor_natCast]

end Double

end Raceway
