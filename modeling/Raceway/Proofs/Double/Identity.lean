import Raceway.Proofs.Double.Order
/-!
# Doubles that are the same

A double that is a number is the same as another one when both unpack to the same parts.  So the
rank decides which double it is, except that both zeros have rank 0.
-/

namespace Raceway.Double

open Float.Model (Format UnpackedFloat)
open Float.Model.UnpackedFloat

/-! ## Bits -/

theorem toBitVec_ofBitVec (b : BitVec 1) : (Sign.ofBitVec b).toBitVec = b := by
  revert b
  decide

theorem packComponents_unpack (b : BitVec Format.binary64.numBits) :
    packComponents Format.binary64 (.ofBitVec (unpackSign b)) (unpackExponent b)
      (unpackMantissa b) = b := by
  rw [packComponents, toBitVec_ofBitVec]
  apply BitVec.eq_of_getLsbD_eq
  intro i hi
  change i < 64 at hi
  simp only [unpackSign, unpackExponent, unpackMantissa, BitVec.getLsbD_append,
    BitVec.getLsbD_cast, BitVec.getLsbD_extractLsb]
  split_ifs <;> simp <;> grind

theorem pack_unpack {b : BitVec Format.binary64.numBits}
    (h : (unpack Format.binary64 b).isNaN = false) :
    pack Format.binary64 (unpack Format.binary64 b) = b := by
  have hb := packComponents_unpack b
  obtain ⟨s, hs⟩ : ∃ s, s = Sign.ofBitVec (unpackSign b) := ⟨_, rfl⟩
  obtain ⟨e, he⟩ : ∃ e, e = unpackExponent b := ⟨_, rfl⟩
  obtain ⟨m, hm⟩ : ∃ m, m = unpackMantissa b := ⟨_, rfl⟩
  rw [← hs, ← he, ← hm] at hb
  rw [← hb] at h ⊢
  rw [unpack_components] at h ⊢
  -- The exponents of infinity, of the doubles below the first binade, and of all others.
  by_cases hones : e = -1#11
  · by_cases hzero : m = 0#52
    · rw [if_pos hones, if_pos hzero, pack, packedInfinity, hones, hzero]
      rfl
    · rw [if_pos hones, if_neg hzero] at h
      cases h
  by_cases hsub : e = 0#11
  · by_cases hzero : m = 0#52
    · rw [if_neg hones, if_pos hsub, dif_pos hzero, hsub, hzero]
      rfl
    · rw [if_neg hones, if_pos hsub, dif_neg hzero, hsub]
      have hpos : 0 < m.toNat := by simpa [BitVec.toNat_pos, BitVec.pos_iff_ne_zero] using hzero
      have hlog : m.toNat.log2 < 52 := (Nat.log2_lt hpos.ne').mpr m.isLt
      have hpack := pack_place s (k := 0) hpos
      rw [if_neg (by omega), if_neg (by omega), BitVec.ofNat_toNat] at hpack
      exact hpack
  · obtain ⟨k, hk⟩ : ∃ k, e.toNat = k + 1 :=
      Nat.exists_eq_succ_of_ne_zero fun hzero => hsub (BitVec.eq_of_toNat_eq hzero)
    have hlt : k + 1 ≠ 2047 := fun hlast => hones (BitVec.eq_of_toNat_eq (hk.trans hlast))
    have hbound : k + 1 < 2 ^ 11 := hk ▸ e.isLt
    have hm : (1#1 ++ m).toNat = 2 ^ 52 + m.toNat := toNat_one_append m
    have hm52 : m.toNat < 2 ^ 52 := m.isLt
    have hlog : (1#1 ++ m).toNat.log2 = 52 := by
      rw [hm, Nat.log2_eq_iff (by omega)]
      omega
    have hexponent : (e.toNat : ℤ) - 1075 = k - 1074 := by omega
    have hpack := pack_place s (k := k) (m := (1#1 ++ m).toNat) (by omega)
    have hmantissa : BitVec.ofNat 52 (1#1 ++ m).toNat = m := by
      apply BitVec.eq_of_toNat_eq
      rw [hm, BitVec.toNat_ofNat]
      omega
    rw [if_neg (by omega), if_pos (by omega), hmantissa, ← hk, BitVec.ofNat_toNat] at hpack
    rw [if_neg hones, if_neg hsub]
    simp only [hexponent]
    exact hpack

theorem eq_of_unpack {x y : Float} (hx : x.isNaN = false)
    (h : x.toModel.unpack = y.toModel.unpack) : x = y := by
  have hy : y.isNaN = false := by
    rw [isNaN_eq, ← h]
    exact hx
  have hbits : x.toModel.toBits.toBitVec = y.toModel.toBits.toBitVec := by
    rw [← pack_unpack hx, ← pack_unpack hy]
    exact congrArg _ h
  obtain ⟨⟨xbits, hxvalid⟩⟩ := x
  obtain ⟨⟨ybits, hyvalid⟩⟩ := y
  obtain rfl : xbits = ybits := UInt64.toBitVec_inj.mp hbits
  rfl

theorem unpack_pack_of_fits {f : UnpackedFloat} (hf : Canonical f ∧ Fits f) :
    unpack Format.binary64 (pack Format.binary64 f) = f := by
  cases f with
  | notANumber => exact unpack_pack_notANumber
  | infinity s => exact unpack_pack_infinity s
  | zero s => exact unpack_pack_zero s
  | finite s m e hm =>
      obtain ⟨⟨k, rfl, hm53, hk⟩, hfits⟩ := hf
      rw [Fits] at hfits
      rw [unpack_pack_finite s hm hm53 hk, if_pos (by omega)]

@[simp] theorem unpack_neg (x : Float) : (-x).toModel.unpack = x.toModel.unpack.neg := by
  have hx := canonical x
  have hneg : Canonical x.toModel.unpack.neg ∧ Fits x.toModel.unpack.neg := by
    cases hunpack : x.toModel.unpack <;> rw [hunpack] at hx <;> exact hx
  exact unpack_pack_of_fits hneg

/-! ## Ranks -/

theorem unpack_of_rank {x : Float} (hx : x.isNaN = false) {k m : ℕ} (hpos : 0 < m)
    (hm : m < 2 ^ 53) (hk : k = 0 ∨ 2 ^ 52 ≤ m) (htop : k < 2046)
    (hrank : rank x = (k * 2 ^ 52 + m : ℕ)) :
    x.toModel.unpack = .finite .positive m (k - 1074) hpos := by
  have hcanonical := (canonical x).1
  rw [isNaN_eq] at hx
  rw [rank] at hrank
  cases hunpack : x.toModel.unpack with
  | notANumber =>
      rw [hunpack] at hx
      cases hx
  | zero s =>
      rw [hunpack] at hrank
      simp only [rankOf] at hrank
      omega
  | infinity s =>
      have hlast : top = 2047 * 2 ^ 52 := rfl
      rw [hunpack] at hrank
      cases s <;> simp only [rankOf, Sign.apply] at hrank <;> omega
  | finite s n e hn =>
      rw [hunpack] at hrank hcanonical
      obtain ⟨l, rfl, hn53, hl⟩ := hcanonical
      have hexponent : ((l : ℤ) - 1074 + 1074).toNat = l := by omega
      cases s with
      | negative =>
          simp only [rankOf, Sign.apply] at hrank
          omega
      | positive =>
          simp only [rankOf, Sign.apply, hexponent] at hrank
          obtain ⟨rfl, rfl⟩ : l = k ∧ n = m := by omega
          rfl

end Raceway.Double
