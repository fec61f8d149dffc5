import Mathlib
import Raceway.Proofs.Double.Scale
/-!
# Ranks of doubles

The rank of a double is its place on the scale, below zero for a negative one.  Infinity has the
place after the largest double.  Comparing doubles that are numbers means comparing their ranks.
-/

namespace Raceway.Double

open Float.Model (Format UnpackedFloat)
open Float.Model.UnpackedFloat

/-- The place of infinity. -/
def top : ℕ := 2047 * 2 ^ 52

/-- The rank of a double by its parts. What is not a number is given rank 0. -/
def rankOf : UnpackedFloat → ℤ
  | .infinity sign => sign.apply top
  | .finite sign mantissa exponent _ =>
    sign.apply ((exponent + 1074).toNat * 2 ^ 52 + mantissa : ℕ)
  | _ => 0

/-- The value of a double by its parts, 0 where it has none. -/
def valueOf : UnpackedFloat → ℚ
  | .finite sign mantissa exponent _ => sign.apply mantissa * 2 ^ exponent
  | _ => 0

/-- The mantissa has 53 bits unless it is in the lowest binade. -/
def Canonical : UnpackedFloat → Prop
  | .finite _ mantissa exponent _ =>
    ∃ k : ℕ, exponent = k - 1074 ∧ mantissa < 2 ^ 53 ∧ (k = 0 ∨ 2 ^ 52 ≤ mantissa)
  | _ => True

/-- The exponent is that of a double. -/
def Fits : UnpackedFloat → Prop
  | .finite _ _ exponent _ => exponent < 972
  | _ => True

theorem toNat_one_append (m : BitVec 52) : (1#1 ++ m).toNat = 2 ^ 52 + m.toNat := by
  rw [BitVec.toNat_append, ← Nat.shiftLeft_add_eq_or_of_lt m.isLt]
  rfl

theorem canonical_unpack (b : BitVec 64) :
    Canonical (unpack Format.binary64 b) ∧ Fits (unpack Format.binary64 b) := by
  unfold unpack
  extract_lets m e exponent s sign
  have hexponent : exponent = (e.toNat : ℤ) - 1075 := rfl
  have hm : m.toNat < 2 ^ 52 := m.isLt
  have he : e.toNat < 2 ^ 11 := e.isLt
  split_ifs with hones hzero hsub hzero
  · exact ⟨trivial, trivial⟩
  · exact ⟨trivial, trivial⟩
  · exact ⟨trivial, trivial⟩
  · have hezero : e.toNat = 0 := by rw [hsub]; rfl
    refine ⟨⟨0, ?_, ?_, Or.inl rfl⟩, ?_⟩
    · rw [hexponent, hezero]; rfl
    · omega
    · show exponent + 1 < 972
      omega
  · have hne : e.toNat ≠ 0 := fun h => hsub (BitVec.eq_of_toNat_eq h)
    have hne' : e.toNat ≠ 2047 := fun h => hones (BitVec.eq_of_toNat_eq h)
    refine ⟨⟨e.toNat - 1, ?_, ?_, Or.inr ?_⟩, ?_⟩
    · omega
    · rw [toNat_one_append]; omega
    · rw [toNat_one_append]; omega
    · show exponent < 972
      omega

/-! ## Comparisons -/

theorem place_of_finite {sign : Sign} {m : ℕ} {e : ℤ} {hm : 0 < m}
    (hcanonical : Canonical (.finite sign m e hm)) (hfits : Fits (.finite sign m e hm)) :
    0 < (e + 1074).toNat * 2 ^ 52 + m ∧ (e + 1074).toNat * 2 ^ 52 + m < top := by
  obtain ⟨k, rfl, hlt, -⟩ := hcanonical
  have hk : k < 2046 := by
    have : (k : ℤ) - 1074 < 972 := hfits
    omega
  have hplace : ((k : ℤ) - 1074 + 1074).toNat = k := by omega
  rw [hplace, top]
  omega

theorem compare_place {k l m n : ℕ} (hm : m < 2 ^ 53) (hn : n < 2 ^ 53)
    (hk : k = 0 ∨ 2 ^ 52 ≤ m) (hl : l = 0 ∨ 2 ^ 52 ≤ n) :
    (compare ((k : ℤ) - 1074) ((l : ℤ) - 1074)).then (compare m n) =
      compare (k * 2 ^ 52 + m) (l * 2 ^ 52 + n) := by
  rcases lt_trichotomy k l with hlt | rfl | hlt
  · have hexponent : compare ((k : ℤ) - 1074) ((l : ℤ) - 1074) = .lt :=
      compare_lt_iff_lt.mpr (by omega)
    rw [hexponent, Ordering.lt_then, compare_lt_iff_lt.mpr]
    omega
  · rw [compare_eq_iff_eq.mpr rfl, Ordering.eq_then]
    rcases lt_trichotomy m n with hlt | rfl | hlt
    · rw [compare_lt_iff_lt.mpr hlt, compare_lt_iff_lt.mpr (by omega)]
    · rw [compare_eq_iff_eq.mpr rfl, compare_eq_iff_eq.mpr rfl]
    · rw [compare_gt_iff_gt.mpr hlt, compare_gt_iff_gt.mpr (by omega)]
  · have hexponent : compare ((k : ℤ) - 1074) ((l : ℤ) - 1074) = .gt :=
      compare_gt_iff_gt.mpr (by omega)
    rw [hexponent, Ordering.gt_then, compare_gt_iff_gt.mpr]
    omega

theorem compare_apply (sign : Sign) (p q : ℕ) :
    compare (sign.apply p) (sign.apply q) =
      match sign with
      | .positive => compare p q
      | .negative => (compare p q).swap := by
  rcases lt_trichotomy p q with hlt | rfl | hlt <;> cases sign
  · rw [compare_lt_iff_lt.mpr hlt]
    exact compare_gt_iff_gt.mpr (by simp only [Sign.apply]; omega)
  · rw [compare_lt_iff_lt.mpr hlt]
    exact compare_lt_iff_lt.mpr (by simp only [Sign.apply]; omega)
  · rw [compare_eq_iff_eq.mpr rfl, compare_eq_iff_eq.mpr rfl]; rfl
  · rw [compare_eq_iff_eq.mpr rfl, compare_eq_iff_eq.mpr rfl]
  · rw [compare_gt_iff_gt.mpr hlt]
    exact compare_lt_iff_lt.mpr (by simp only [Sign.apply]; omega)
  · rw [compare_gt_iff_gt.mpr hlt]
    exact compare_gt_iff_gt.mpr (by simp only [Sign.apply]; omega)

theorem compare_finite {sign : Sign} {m n : ℕ} {e f : ℤ} {hm : 0 < m} {hn : 0 < n}
    (h : Canonical (.finite sign m e hm)) (h' : Canonical (.finite sign n f hn)) :
    UnpackedFloat.compare (.finite sign m e hm) (.finite sign n f hn) =
      some (compare (rankOf (.finite sign m e hm)) (rankOf (.finite sign n f hn))) := by
  obtain ⟨k, rfl, hmlt, hk⟩ := h
  obtain ⟨l, rfl, hnlt, hl⟩ := h'
  have hplace (i : ℕ) : ((i : ℤ) - 1074 + 1074).toNat = i := by omega
  have hcompare := compare_place hmlt hnlt hk hl
  rw [rankOf, rankOf, compare_apply, hplace, hplace, ← hcompare]
  cases sign <;> rfl

theorem top_pos : 0 < top := by
  decide

/-- Doubles that are numbers compare as their ranks do. -/
theorem compare_rankOf {f g : UnpackedFloat} (hf : Canonical f ∧ Fits f)
    (hg : Canonical g ∧ Fits g) (hfnan : f.isNaN = false) (hgnan : g.isNaN = false) :
    f.compare g = some (compare (rankOf f) (rankOf g)) := by
  have htop := top_pos
  have hlt {a b : ℤ} (h : a < b) : some Ordering.lt = some (compare a b) :=
    congrArg some (compare_lt_iff_lt.mpr h).symm
  have hgt {a b : ℤ} (h : b < a) : some Ordering.gt = some (compare a b) :=
    congrArg some (compare_gt_iff_gt.mpr h).symm
  have heq {a b : ℤ} (h : a = b) : some Ordering.eq = some (compare a b) :=
    congrArg some (compare_eq_iff_eq.mpr h).symm
  -- The signs decide, but for two finite doubles of one sign.
  cases f with
  | notANumber => cases hfnan
  | zero s =>
      cases g with
      | notANumber => cases hgnan
      | zero t => exact heq rfl
      | infinity t =>
          cases t
          · exact hgt (by simp only [rankOf, Sign.apply]; omega)
          · exact hlt (by simp only [rankOf, Sign.apply]; omega)
      | finite t n f hn =>
          have hplace := place_of_finite hg.1 hg.2
          cases t
          · exact hgt (by simp only [rankOf, Sign.apply]; omega)
          · exact hlt (by simp only [rankOf, Sign.apply]; omega)
  | infinity s =>
      cases g with
      | notANumber => cases hgnan
      | zero t =>
          cases s
          · exact hlt (by simp only [rankOf, Sign.apply]; omega)
          · exact hgt (by simp only [rankOf, Sign.apply]; omega)
      | infinity t =>
          cases s <;> cases t
          · exact heq rfl
          · exact hlt (by simp only [rankOf, Sign.apply]; omega)
          · exact hgt (by simp only [rankOf, Sign.apply]; omega)
          · exact heq rfl
      | finite t n f hn =>
          have hplace := place_of_finite hg.1 hg.2
          cases s
          · exact hlt (by cases t <;> simp only [rankOf, Sign.apply] <;> omega)
          · exact hgt (by cases t <;> simp only [rankOf, Sign.apply] <;> omega)
  | finite s m e hm =>
      have hplace := place_of_finite hf.1 hf.2
      cases g with
      | notANumber => cases hgnan
      | zero t =>
          cases s
          · exact hlt (by simp only [rankOf, Sign.apply]; omega)
          · exact hgt (by simp only [rankOf, Sign.apply]; omega)
      | infinity t =>
          cases t
          · exact hgt (by cases s <;> simp only [rankOf, Sign.apply] <;> omega)
          · exact hlt (by cases s <;> simp only [rankOf, Sign.apply] <;> omega)
      | finite t n f hn =>
          have hplace' := place_of_finite hg.1 hg.2
          cases s <;> cases t
          · exact compare_finite hf.1 hg.1
          · exact hlt (by simp only [rankOf, Sign.apply]; omega)
          · exact hgt (by simp only [rankOf, Sign.apply]; omega)
          · exact compare_finite hf.1 hg.1

/-! ## Packing -/

theorem unpack_components (sign : Sign) {e : BitVec 11} {m : BitVec 52} :
    unpack Format.binary64 (packComponents Format.binary64 sign e m) =
      if e = -1#_ then (if m = 0#_ then .infinity sign else .notANumber)
      else if e = 0#_ then
        if h : m = 0#_ then .zero sign
        else .finite sign m.toNat (-1074) (by simpa [BitVec.toNat_pos, BitVec.pos_iff_ne_zero])
      else .finite sign (1#1 ++ m).toNat (e.toNat - 1075) (by rw [toNat_one_append]; omega) := by
  unfold unpack
  simp only [unpackMantissa_packComponents, unpackExponent_packComponents,
    unpackSign_packComponents, Sign.ofBitVec_toBitVec]
  split_ifs with h1 h2 h3 h4
  · rfl
  · rfl
  · rfl
  · subst h3; rfl
  · rfl

theorem pack_place (sign : Sign) {k m : ℕ} (hpos : 0 < m) :
    pack Format.binary64 (.finite sign m (k - 1074) hpos) =
      if 2 ^ 11 ≤ k + 1 + 1 then packedInfinity Format.binary64 sign
      else if m.log2 + 1 = 53 then
        packComponents Format.binary64 sign (BitVec.ofNat 11 (k + 1)) (BitVec.ofNat 52 m)
      else packComponents Format.binary64 sign 0#11 (BitVec.ofNat 52 m) := by
  have hbiased : ((k : ℤ) - 1074 + 1023 + 52).toNat = k + 1 := by omega
  rw [← hbiased]
  rfl

theorem unpack_pack_finite (sign : Sign) {k m : ℕ} (hpos : 0 < m) (hm : m < 2 ^ 53)
    (hk : k = 0 ∨ 2 ^ 52 ≤ m) :
    unpack Format.binary64 (pack Format.binary64 (.finite sign m (k - 1074) hpos)) =
      if k < 2046 then .finite sign m (k - 1074) hpos else .infinity sign := by
  rw [pack_place]
  rcases Nat.lt_or_ge k 2046 with hlt | hge
  · rw [if_neg (by omega), if_pos hlt]
    rcases Nat.lt_or_ge m (2 ^ 52) with hsub | hnormal
    · have hlog : m.log2 < 52 := (Nat.log2_lt hpos.ne').mpr hsub
      obtain rfl : k = 0 := by omega
      have hvec : (BitVec.ofNat 52 m).toNat = m := Nat.mod_eq_of_lt hsub
      have hne : BitVec.ofNat 52 m ≠ 0#52 := by
        intro h
        rw [h] at hvec
        exact hpos.ne hvec
      rw [if_neg (by omega), unpack_components, if_neg (by decide), if_pos rfl, dif_neg hne,
        UnpackedFloat.finite.injEq]
      exact ⟨rfl, hvec, rfl⟩
    · have hlog : m.log2 = 52 := (Nat.log2_eq_iff hpos.ne').mpr ⟨hnormal, hm⟩
      have hexponent : (BitVec.ofNat 11 (k + 1)).toNat = k + 1 := Nat.mod_eq_of_lt (by omega)
      have hones : BitVec.ofNat 11 (k + 1) ≠ -1#11 := by
        intro h
        rw [h] at hexponent
        have : (-1#11).toNat = 2047 := rfl
        omega
      have hzero : BitVec.ofNat 11 (k + 1) ≠ 0#11 := by
        intro h
        rw [h] at hexponent
        exact absurd hexponent (by simp)
      have hmantissa : (1#1 ++ BitVec.ofNat 52 m).toNat = m := by
        have hvec : (BitVec.ofNat 52 m).toNat = m % 2 ^ 52 := rfl
        rw [toNat_one_append, hvec]
        omega
      rw [if_pos (by omega), unpack_components, if_neg hones, if_neg hzero,
        UnpackedFloat.finite.injEq]
      exact ⟨rfl, hmantissa, by omega⟩
  · rw [if_pos (by omega), if_neg (by omega), packedInfinity, unpack_components, if_pos rfl]
    rfl

@[simp] theorem unpack_pack_notANumber :
    unpack Format.binary64 (pack Format.binary64 .notANumber) = .notANumber :=
  rfl

@[simp] theorem unpack_pack_zero (sign : Sign) :
    unpack Format.binary64 (pack Format.binary64 (.zero sign)) = .zero sign := by
  cases sign <;> rfl

@[simp] theorem unpack_pack_infinity (sign : Sign) :
    unpack Format.binary64 (pack Format.binary64 (.infinity sign)) = .infinity sign := by
  cases sign <;> rfl

/-- Cuts ranks beyond infinity down to it. -/
def clamp (r : ℤ) : ℤ :=
  max (-top) (min top r)

theorem clamp_mono : Monotone clamp := by
  intro r s h
  unfold clamp
  omega

theorem clamp_of_bounds {r : ℤ} (hlow : -top ≤ r) (hhigh : r ≤ top) : clamp r = r := by
  unfold clamp
  omega

/-- Packing keeps a canonical double, except that one that is too large becomes infinity. -/
theorem unpack_pack {f : UnpackedFloat} (hf : Canonical f) (hnumber : f.isNaN = false) :
    (unpack Format.binary64 (pack Format.binary64 f)).isNaN = false ∧
      rankOf (unpack Format.binary64 (pack Format.binary64 f)) = clamp (rankOf f) := by
  have htop : (top : ℤ) = 2047 * 2 ^ 52 := rfl
  cases f with
  | notANumber => cases hnumber
  | zero s =>
      rw [unpack_pack_zero]
      exact ⟨rfl, rfl⟩
  | infinity s =>
      rw [unpack_pack_infinity]
      cases s <;> exact ⟨rfl, rfl⟩
  | finite s m e hpos =>
      obtain ⟨k, rfl, hm, hk⟩ := hf
      have hplace : ((k : ℤ) - 1074 + 1074).toNat = k := by omega
      rw [unpack_pack_finite s hpos hm hk]
      split_ifs with hlt <;> refine ⟨rfl, ?_⟩ <;> cases s <;>
        simp only [rankOf, Sign.apply, clamp, hplace] <;> omega

theorem rankOf_bounds {f : UnpackedFloat} (hf : Canonical f ∧ Fits f) :
    -top ≤ rankOf f ∧ rankOf f ≤ top := by
  have htop := top_pos
  cases f with
  | finite s m e hm =>
      have hplace := place_of_finite hf.1 hf.2
      cases s <;> simp only [rankOf, Sign.apply] <;> omega
  | infinity s => cases s <;> simp only [rankOf, Sign.apply] <;> omega
  | _ => simp only [rankOf]; omega

theorem rankOf_bounds_of_isFinite {f : UnpackedFloat} (hf : Canonical f ∧ Fits f)
    (hfinite : f.isFinite = true) : -top < rankOf f ∧ rankOf f < top := by
  have htop := top_pos
  cases f with
  | finite s m e hm =>
      have hplace := place_of_finite hf.1 hf.2
      cases s <;> simp only [rankOf, Sign.apply] <;> omega
  | zero s => simp only [rankOf]; omega
  | _ => cases hfinite

end Raceway.Double
