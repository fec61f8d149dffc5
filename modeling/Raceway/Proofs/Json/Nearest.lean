import Raceway.Proofs.Decimal.Value
import Raceway.Proofs.Double.Identity
import Raceway.Proofs.Json.Scalars
/-!
# Shortest decimals read back

The shortest decimal of a double is nearer to it than to any other double, so a reader that finds
the nearest double gets it back, zeros with their signs.
-/

namespace Raceway.Json

open Decimal (Digits Magnitude Numeral Style Tie scientific)
open Float.Model (UnpackedFloat)
open Float.Model.UnpackedFloat (Sign)

attribute [local instance] NumberText.nearest

/-! ## The double of a numeral -/

variable {x : Float} {n : Numeral}

theorem valueOf_of_unpack (sign : Sign) (size : UnpackedFloat) (hx : x.isNaN = false)
    (hsize : (Decimal.toDouble n.digits n.scale).toModel.unpack = size)
    (hunpack : x.toModel.unpack = if isNegative sign then size.neg else size) :
    NumberText.valueOf (n.literal (isNegative sign)) = x := by
  symm
  apply Double.eq_of_unpack hx
  cases sign with
  | negative =>
      change _ = (-Decimal.toDouble n.digits n.scale).toModel.unpack
      rw [hunpack, Double.unpack_neg, hsize]
      rfl
  | positive => exact hunpack.trans hsize.symm

theorem valueOf_zero (sign : Sign) (hunpack : x.toModel.unpack = .zero sign) :
    NumberText.valueOf (Numeral.zero.literal (isNegative sign)) = x := by
  have hx : x.isNaN = false := by
    rw [Double.isNaN_eq, hunpack]
    rfl
  refine valueOf_of_unpack sign (.zero .positive) hx ?_ ?_
  · rfl
  · rw [hunpack]
    cases sign <;> rfl

theorem valueOf_finite {sign : Sign} {k m : ℕ} {hm : 0 < m} {tie : Tie}
    (hunpack : x.toModel.unpack = .finite sign m (k - 1074) hm) (hm53 : m < 2 ^ 53)
    (hk : k = 0 ∨ 2 ^ 52 ≤ m) (hlast : k < 2046)
    (hn : n.value = ((Magnitude.mk m (k - 1074)).shortest tie).strip.value) :
    NumberText.valueOf (n.literal (isNegative sign)) = x := by
  have hx : x.isNaN = false := by
    rw [Double.isNaN_eq, hunpack]
    rfl
  obtain ⟨hnumber, hrank⟩ := Double.toDouble_spec n.digits n.scale
  have hnearest : Double.nearest (n.digits * 10 ^ n.scale * Double.scale) = k * 2 ^ 52 + m := by
    have h := Magnitude.nearest_shortest (x := ⟨m, k - 1074⟩) rfl hm hm53 hk tie
    rwa [← hn] at h
  have hnonneg : 0 ≤ (n.digits : ℚ) * 10 ^ n.scale * Double.scale :=
    mul_nonneg (by positivity) Double.scale_pos.le
  have htop : Double.top = 2047 * 2 ^ 52 := rfl
  rw [Double.round, Double.signedNearest_of_nonneg hnonneg, hnearest,
    Double.clamp_of_bounds (by omega) (by omega)] at hrank
  refine valueOf_of_unpack sign _ hx (Double.unpack_of_rank hnumber hm hm53 hk hlast hrank) ?_
  rw [hunpack]
  cases sign <;> rfl

/-! ## Texts of doubles -/

/-- The text of a finite double: a numeral behind the sign, with a point or an exponent. -/
theorem exists_writeDouble (hx : x.isFinite = true) :
    ∃ sign, ∃ n : Numeral, writeDouble x = Style.signText sign ++ n.text ∧ n.isWhole = false ∧
      NumberText.valueOf (n.literal (isNegative sign)) = x := by
  have htext : writeDouble x = scientific.text x := if_pos hx
  rw [htext, Style.text]
  rw [Double.isFinite_eq] at hx
  obtain ⟨hcanonical, hfits⟩ := Double.canonical x
  cases hunpack : x.toModel.unpack with
  | notANumber =>
      rw [hunpack] at hx
      cases hx
  | infinity sign =>
      rw [hunpack] at hx
      cases hx
  | zero sign => exact ⟨sign, .zero, rfl, rfl, valueOf_zero sign hunpack⟩
  | finite sign m e hm =>
      rw [hunpack] at hcanonical hfits
      obtain ⟨k, rfl, hm53, hk⟩ := hcanonical
      rw [Double.Fits] at hfits
      have hpos := Magnitude.digits_shortest_pos (x := ⟨m, k - 1074⟩) rfl hm hm53 hk scientific.tie
      obtain ⟨n, htext, hwhole, hvalue⟩ := Decimal.exists_numeral hpos
      exact ⟨sign, n, by rw [htext], hwhole,
        valueOf_finite hunpack hm53 hk (by omega) hvalue⟩

theorem NumberText.faithful_nearest : NumberText.Faithful where
  reads_back x hx := by
    obtain ⟨sign, n, htext, hwhole, hvalue⟩ := exists_writeDouble hx
    have hnumber : (n.literal (isNegative sign)).number = .ok (.floating x) := by
      have hpoint : (n.literal (isNegative sign)).isWhole = false := hwhole
      simp [Literal.number, hpoint, hvalue, hx]
    have hread := recovers_number .double hnumber [] delimited_nil
    rw [List.append_nil, ← htext] at hread
    exact hread.map fun _ => ⟨rfl, rfl⟩
  writes_null x hx := if_neg (by simp [hx])

end Raceway.Json
