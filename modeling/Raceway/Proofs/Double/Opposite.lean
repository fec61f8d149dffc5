import Raceway.Proofs.Double.Identity
/-!
# Opposite doubles

Rounding takes no notice of signs: opposite operands have opposite differences and products, and
their quotients are the same.  Only zeros stand apart, since a difference of nothing is zero with
its own sign whichever way round it is taken; but no comparison tells the two zeros from each other.
-/

namespace Raceway.Double

open Float.Model (Format UnpackedFloat)
open Float.Model.UnpackedFloat

/-! ## By parts -/

/-- The parts of two doubles of opposite sign and the same magnitude.  Zeros are opposite to each
other whatever their signs are, and what is no number is opposite to itself. -/
inductive OppositeOf : UnpackedFloat → UnpackedFloat → Prop
  | neg (f : UnpackedFloat) : OppositeOf f f.neg
  | zeros (s t : Sign) : OppositeOf (.zero s) (.zero t)

@[simp] theorem neg_neg_parts (f : UnpackedFloat) : f.neg.neg = f := by
  cases f with
  | notANumber => rfl
  | infinity s => cases s <;> rfl
  | zero s => cases s <;> rfl
  | finite s m e hm => cases s <;> rfl

theorem unpack_packComponents_neg (sign : Sign) (e : BitVec 11) (m : BitVec 52) :
    unpack Format.binary64 (packComponents Format.binary64 (-sign) e m) =
      (unpack Format.binary64 (packComponents Format.binary64 sign e m)).neg := by
  rw [unpack_components, unpack_components]
  split_ifs <;> rfl

/-- Packing rounds to infinity and cuts to size without a look at the sign. -/
theorem unpack_pack_neg (f : UnpackedFloat) :
    unpack Format.binary64 (pack Format.binary64 f.neg) =
      (unpack Format.binary64 (pack Format.binary64 f)).neg := by
  cases f with
  | notANumber => rfl
  | infinity s => exact unpack_packComponents_neg s _ _
  | zero s => exact unpack_packComponents_neg s _ _
  | finite s m e hm =>
      rw [UnpackedFloat.neg, pack, pack]
      split_ifs
      · exact unpack_packComponents_neg s _ _
      · exact unpack_packComponents_neg s _ _
      · exact unpack_packComponents_neg s _ _

theorem roundWithAccuracy_neg (sign : Sign) (m : ℕ) (e : ℤ) (acc : Accuracy) :
    roundWithAccuracy Format.binary64 (-sign) m e acc =
      (roundWithAccuracy Format.binary64 sign m e acc).neg := by
  simp only [roundWithAccuracy]
  split_ifs <;> rfl

theorem round_neg (sign : Sign) (m : ℕ) (e : ℤ) :
    UnpackedFloat.round Format.binary64 (-sign) m e =
      (UnpackedFloat.round Format.binary64 sign m e).neg :=
  roundWithAccuracy_neg sign _ _ _

theorem oppositeOf_normalize (n e : ℤ) : OppositeOf
    (UnpackedFloat.normalize Format.binary64 n e .positive)
    (UnpackedFloat.normalize Format.binary64 (-n) e .positive) := by
  unfold UnpackedFloat.normalize
  rcases lt_trichotomy n 0 with hneg | rfl | hpos
  · rw [compare_lt_iff_lt.mpr hneg, compare_gt_iff_gt.mpr (neg_pos.mpr hneg)]
    have hround := round_neg .negative (-n).toNat e
    exact hround ▸ .neg _
  · exact .zeros .positive .positive
  · rw [compare_gt_iff_gt.mpr hpos, compare_lt_iff_lt.mpr (neg_neg_of_pos hpos)]
    have hround := round_neg .positive n.toNat e
    simp only [neg_neg]
    exact hround ▸ .neg _

theorem oppositeOf_sub (f g : UnpackedFloat) : OppositeOf
    (UnpackedFloat.sub Format.binary64 f g) (UnpackedFloat.sub Format.binary64 g f) := by
  cases f with
  | notANumber => cases g <;> exact .neg .notANumber
  | infinity s =>
      cases g with
      | notANumber => exact .neg .notANumber
      | infinity t => cases s <;> cases t <;> exact .neg _
      | _ => exact .neg (.infinity s)
  | zero s =>
      cases g with
      | notANumber => exact .neg .notANumber
      | infinity t => cases t <;> exact .neg _
      | zero t => cases s <;> cases t <;> exact .zeros _ _
      | finite t n d hn => cases t <;> exact .neg _
  | finite s m e hm =>
      cases g with
      | notANumber => exact .neg .notANumber
      | infinity t => cases t <;> exact .neg _
      | zero t => exact .neg _
      | finite t n d hn =>
          have hnormalize := oppositeOf_normalize
            (s.apply (decreaseExponent m e (min e d)).1 - t.apply (decreaseExponent n d (min e d)).1)
            (min e d)
          rw [neg_sub] at hnormalize
          simp only [UnpackedFloat.sub, min_comm d e]
          exact hnormalize

theorem oppositeOf_neg_sub_neg (f g : UnpackedFloat) : OppositeOf
    (UnpackedFloat.sub Format.binary64 f g) (UnpackedFloat.sub Format.binary64 f.neg g.neg) := by
  have hswap : UnpackedFloat.sub Format.binary64 f.neg g.neg =
      UnpackedFloat.sub Format.binary64 g f := by
    rw [sub_eq_add, sub_eq_add, neg_neg_parts, add_symm]
  rw [hswap]
  exact oppositeOf_sub f g

theorem mul_symm (f g : UnpackedFloat) :
    UnpackedFloat.mul Format.binary64 f g = UnpackedFloat.mul Format.binary64 g f := by
  have hsign (s t : Sign) : s * t = t * s := by cases s <;> cases t <;> rfl
  cases f <;> cases g <;>
    simp only [UnpackedFloat.mul, hsign, Nat.mul_comm, Int.add_comm]

theorem mul_neg_parts (f g : UnpackedFloat) :
    UnpackedFloat.mul Format.binary64 f g.neg = (UnpackedFloat.mul Format.binary64 f g).neg := by
  have hsign (s t : Sign) : s * -t = -(s * t) := by cases s <;> cases t <;> rfl
  cases f <;> cases g <;>
    simp only [UnpackedFloat.mul, UnpackedFloat.neg, hsign, roundWithAccuracy_neg]

theorem div_neg_neg_parts (f g : UnpackedFloat) :
    UnpackedFloat.div Format.binary64 f.neg g.neg = UnpackedFloat.div Format.binary64 f g := by
  have hsign (s t : Sign) : -s / -t = s / t := by cases s <;> cases t <;> rfl
  cases f <;> cases g <;> simp only [UnpackedFloat.div, UnpackedFloat.neg, hsign]

namespace OppositeOf

variable {f g f' g' : UnpackedFloat}

theorem mul (h : UnpackedFloat) (hf : OppositeOf f f') : OppositeOf
    (UnpackedFloat.mul Format.binary64 h f) (UnpackedFloat.mul Format.binary64 h f') := by
  cases hf with
  | neg f => exact mul_neg_parts h f ▸ .neg _
  | zeros s t =>
      cases h with
      | notANumber => exact .neg .notANumber
      | infinity => exact .neg .notANumber
      | zero => exact .zeros _ _
      | finite => exact .zeros _ _

theorem sub (hf : OppositeOf f f') (hg : OppositeOf g g') : OppositeOf
    (UnpackedFloat.sub Format.binary64 f g) (UnpackedFloat.sub Format.binary64 f' g') := by
  cases hf with
  | neg f =>
      cases hg with
      | neg g => exact oppositeOf_neg_sub_neg f g
      | zeros s t =>
          cases f with
          | zero r => cases r <;> cases s <;> cases t <;> exact .zeros _ _
          | _ => exact .neg _
  | zeros s t =>
      cases hg with
      | zeros q r => cases q <;> cases r <;> cases s <;> cases t <;> exact .zeros _ _
      | neg g =>
          cases g with
          | zero r => cases r <;> cases s <;> cases t <;> exact .zeros _ _
          | _ => exact .neg _

theorem div (hf : OppositeOf f f') (hg : OppositeOf g g') (hne : ∀ sign, g ≠ .zero sign) :
    UnpackedFloat.div Format.binary64 f' g' = UnpackedFloat.div Format.binary64 f g ∨
      ∃ s t, UnpackedFloat.div Format.binary64 f g = .zero s ∧
        UnpackedFloat.div Format.binary64 f' g' = .zero t := by
  cases hg with
  | zeros s t => exact absurd rfl (hne s)
  | neg g =>
      cases hf with
      | neg f => exact Or.inl (div_neg_neg_parts f g)
      | zeros s t =>
          cases g with
          | notANumber => exact Or.inl rfl
          | infinity => exact Or.inr ⟨_, _, rfl, rfl⟩
          | zero r => exact absurd rfl (hne r)
          | finite => exact Or.inr ⟨_, _, rfl, rfl⟩

theorem packed (hf : OppositeOf f f') : OppositeOf
    (unpack Format.binary64 (pack Format.binary64 f))
    (unpack Format.binary64 (pack Format.binary64 f')) := by
  cases hf with
  | neg f => exact unpack_pack_neg f ▸ .neg _
  | zeros s t =>
      rw [unpack_pack_zero, unpack_pack_zero]
      exact .zeros s t

end OppositeOf

@[simp] theorem rankOf_neg (f : UnpackedFloat) : rankOf f.neg = -rankOf f := by
  cases f with
  | infinity s => exact apply_neg s _
  | finite s m e hm => exact apply_neg s _
  | _ => rfl

/-! ## Doubles -/

/-- Doubles of opposite sign and the same magnitude. -/
def Opposite (x y : Float) : Prop :=
  OppositeOf x.toModel.unpack y.toModel.unpack

variable {x y x' y' : Float}

theorem product_comm (x y : Float) : x * y = y * x := by
  have hproduct (x y : Float) : x * y =
      .ofModel (.pack (UnpackedFloat.mul Format.binary64 x.toModel.unpack y.toModel.unpack)) := rfl
  rw [hproduct, hproduct, mul_symm]

theorem opposite_sub (x y : Float) : Opposite (x - y) (y - x) :=
  (oppositeOf_sub _ _).packed

namespace Opposite

theorem mul (c : Float) (hx : Opposite x x') : Opposite (c * x) (c * x') :=
  (OppositeOf.mul _ hx).packed

theorem sub (hx : Opposite x x') (hy : Opposite y y') : Opposite (x - y) (x' - y') :=
  (OppositeOf.sub hx hy).packed

theorem isNaN_eq (hx : Opposite x x') : x'.isNaN = x.isNaN := by
  rw [Double.isNaN_eq, Double.isNaN_eq]
  rw [Opposite] at hx
  generalize x.toModel.unpack = f at hx ⊢
  generalize x'.toModel.unpack = g at hx ⊢
  cases hx with
  | neg => cases f <;> rfl
  | zeros => rfl

theorem rank_eq (hx : Opposite x x') : rank x' = -rank x := by
  rw [rank, rank]
  rw [Opposite] at hx
  generalize x.toModel.unpack = f at hx ⊢
  generalize x'.toModel.unpack = g at hx ⊢
  cases hx with
  | neg => exact rankOf_neg f
  | zeros => rfl

theorem beq_zero_eq (hx : Opposite x x') : (x' == 0) = (x == 0) := by
  have hrank : rank 0 = 0 := rfl
  rw [Bool.eq_iff_iff, beq_iff, beq_iff, hx.isNaN_eq, hx.rank_eq, hrank, neg_eq_zero]

theorem div (hx : Opposite x x') (hy : Opposite y y') (hne : ¬(y == 0) = true) :
    (x' / y').isNaN = (x / y).isNaN ∧ rank (x' / y') = rank (x / y) := by
  have hnonzero (sign : Sign) : y.toModel.unpack ≠ .zero sign := by
    intro hzero
    apply hne
    rw [beq_iff, Double.isNaN_eq, rank, hzero]
    exact ⟨rfl, rfl, rfl⟩
  rw [Double.isNaN_eq, Double.isNaN_eq, rank, rank, unpack_div, unpack_div]
  rcases OppositeOf.div hx hy hnonzero with hsame | ⟨s, t, hs, ht⟩
  · rw [hsame]
    exact ⟨rfl, rfl⟩
  · rw [hs, ht, unpack_pack_zero, unpack_pack_zero]
    exact ⟨rfl, rfl⟩

end Opposite

end Raceway.Double
