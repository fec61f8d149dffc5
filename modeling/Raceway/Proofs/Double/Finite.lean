import Raceway.Proofs.Double.Quotient
/-!
# Doubles that are not finite

A product is finite only if both of its factors are, and the quotient of two doubles that are not
finite is no number.  Squares, and sums of doubles that are not negative, are numbers again, since
no infinity of the other sign takes part in them.
-/

namespace Raceway.Double

open Float.Model (Format UnpackedFloat)
open Float.Model.UnpackedFloat

variable {x y a u : Float}

theorem mul_cases (f g : UnpackedFloat) : (f.isFinite = true ∧ g.isFinite = true) ∨
    UnpackedFloat.mul Format.binary64 f g = .notANumber ∨
    ∃ sign, UnpackedFloat.mul Format.binary64 f g = .infinity sign := by
  cases f <;> cases g <;>
    first
    | exact Or.inl ⟨rfl, rfl⟩
    | exact Or.inr (Or.inl rfl)
    | exact Or.inr (Or.inr ⟨_, rfl⟩)

theorem isFinite_of_mul (h : (x * y).isFinite = true) :
    x.isFinite = true ∧ y.isFinite = true :=
  of_packed_finite (mul_cases x.toModel.unpack y.toModel.unpack) h

theorem div_notANumber {f g : UnpackedFloat} (hf : f.isFinite = false) (hg : g.isFinite = false) :
    UnpackedFloat.div Format.binary64 f g = .notANumber := by
  cases f with
  | notANumber => rfl
  | infinity s =>
      cases g with
      | notANumber => rfl
      | infinity t => rfl
      | _ => cases hg
  | _ => cases hf

theorem isFinite_of_div (h : (x / y).isNaN = false) : x.isFinite = true ∨ y.isFinite = true := by
  by_contra! hnot
  have hx := Bool.eq_false_iff.mpr hnot.1
  have hy := Bool.eq_false_iff.mpr hnot.2
  rw [isNaN_eq, unpack_div, div_notANumber hx hy, unpack_pack_notANumber] at h
  cases h

/-! ## Numbers that are not negative -/

theorem nonneg_iff : 0 ≤ x ↔ x.isNaN = false ∧ 0 ≤ rank x := by
  rw [le_iff]
  exact and_iff_right rfl

theorem square_nonneg (hx : x.isNaN = false) : 0 ≤ x * x := by
  rw [nonneg_iff]
  cases hfinite : x.isFinite with
  | true =>
      obtain ⟨hnan, hrank⟩ := mul_spec hfinite hfinite
      refine ⟨hnan, ?_⟩
      rw [hrank, ← round_zero]
      exact round_mono (mul_self_nonneg _)
  | false =>
      obtain ⟨sign, hsign⟩ := eq_infinity hx hfinite
      have hsquare : (x * x).toModel.unpack = .infinity .positive := by
        rw [unpack_mul, hsign]
        cases sign <;> rfl
      refine ⟨?_, ?_⟩
      · rw [isNaN_eq, hsquare]
        rfl
      · rw [rank_infinity hsquare]
        exact Int.natCast_nonneg top

theorem unpack_of_nonneg (hx : 0 ≤ x) (hinfinite : x.isFinite = false) :
    x.toModel.unpack = .infinity .positive := by
  obtain ⟨hnan, hrank⟩ := nonneg_iff.mp hx
  obtain ⟨sign, hsign⟩ := eq_infinity hnan hinfinite
  cases sign with
  | positive => exact hsign
  | negative =>
      have htop := top_pos
      rw [rank_infinity hsign, Sign.apply] at hrank
      omega

theorem sum_nonneg (hx : 0 ≤ x) (hy : 0 ≤ y) : 0 ≤ x + y := by
  obtain ⟨hxnan, hxrank⟩ := nonneg_iff.mp hx
  obtain ⟨hynan, hyrank⟩ := nonneg_iff.mp hy
  rw [nonneg_iff]
  cases hxfinite : x.isFinite with
  | true =>
      cases hyfinite : y.isFinite with
      | true =>
          obtain ⟨hnan, hrank⟩ := add_spec hxfinite hyfinite
          refine ⟨hnan, ?_⟩
          rw [hrank, ← round_zero]
          exact round_mono (add_nonneg ((value_nonneg_iff hxfinite).mpr hxrank)
            ((value_nonneg_iff hyfinite).mpr hyrank))
      | false =>
          obtain ⟨hnan, hrank⟩ := add_infinite hxfinite hynan hyfinite
          exact ⟨hnan, hrank ▸ hyrank⟩
  | false =>
      cases hyfinite : y.isFinite with
      | true =>
          obtain ⟨hnan, hrank⟩ := add_infinite hyfinite hxnan hxfinite
          rw [sum_comm]
          exact ⟨hnan, hrank ▸ hxrank⟩
      | false =>
          have hsum : (x + y).toModel.unpack = .infinity .positive := by
            rw [unpack_add, unpack_of_nonneg hx hxfinite, unpack_of_nonneg hy hyfinite]
            rfl
          refine ⟨?_, ?_⟩
          · rw [isNaN_eq, hsum]
            rfl
          · rw [rank_infinity hsum]
            exact Int.natCast_nonneg top

/-! ## Parts of a finite double -/

theorem isNaN_sub (hx : x.isNaN = false) (ha : a.isFinite = true) : (x - a).isNaN = false := by
  cases hfinite : x.isFinite with
  | true => exact (sub_spec hfinite ha).1
  | false => exact (sub_infinite ha hx hfinite).1

theorem isFinite_of_nonneg_le (h0 : 0 ≤ x) (h : x ≤ y) (hy : y.isFinite = true) :
    x.isFinite = true := by
  obtain ⟨hnan, hrank⟩ := nonneg_iff.mp h0
  have htop := top_pos
  exact isFinite_of_rank hnan (by omega)
    ((rank_le_rank h).trans_lt (rank_bounds_of_isFinite hy).2)

theorem isFinite_of_unit (h0 : 0 ≤ u) (h1 : u ≤ 1) : u.isFinite = true :=
  isFinite_of_nonneg_le h0 h1 one_spec.1

theorem value_of_unit (h0 : 0 ≤ u) (h1 : u ≤ 1) : 0 ≤ value u ∧ value u ≤ 1 := by
  have hu := isFinite_of_unit h0 h1
  have hle := (value_le_value_iff hu one_spec.1).mpr (rank_le_rank h1)
  rw [one_spec.2] at hle
  exact ⟨(value_nonneg_iff hu).mpr (nonneg_iff.mp h0).2, hle⟩

theorem isFinite_part (h0 : 0 ≤ u) (h1 : u ≤ 1) (ha : a.isFinite = true) :
    (u * a).isFinite = true := by
  obtain ⟨hu0, hu1⟩ := value_of_unit h0 h1
  obtain ⟨hnan, hrank⟩ := mul_spec (isFinite_of_unit h0 h1) ha
  have hbounds := rank_bounds_of_isFinite ha
  have hround := round_value ha
  have htop := top_pos
  -- The product is rounded to a place between those of zero and of the double.
  rcases le_total 0 (value a) with hsign | hsign
  · have hlow : round 0 ≤ round (value u * value a) := round_mono (mul_nonneg hu0 hsign)
    have hhigh : round (value u * value a) ≤ round (value a) :=
      round_mono (mul_le_of_le_one_left hsign hu1)
    rw [round_zero] at hlow
    exact isFinite_of_rank hnan (by omega) (by omega)
  · have hlow : round (value a) ≤ round (value u * value a) :=
      round_mono (le_mul_of_le_one_left hsign hu1)
    have hhigh : round (value u * value a) ≤ round 0 :=
      round_mono (mul_nonpos_of_nonneg_of_nonpos hu0 hsign)
    rw [round_zero] at hhigh
    exact isFinite_of_rank hnan (by omega) (by omega)

end Raceway.Double
