/-!
# Floor of a double

The whole part of a double, read off its sign, mantissa and exponent.
-/

namespace Raceway.Double

open Float.Model (UnpackedFloat)

/-- The largest integer at most `±mantissa * 2 ^ (-shift)`. -/
def wholePart (sign : UnpackedFloat.Sign) (mantissa shift : Nat) : Int :=
  sign.apply mantissa / (1 <<< shift : Nat)

/-- The double nearest to an integer of at most 64 bits. -/
def ofWhole : Int → Float
  | .ofNat n => n.toUInt64.toFloat
  | .negSucc n => -(n + 1).toUInt64.toFloat

/-- The largest whole double at most `x`. A double without fraction bits, an infinity and NaN
are their own floor; below `2 ^ 52` every integer is a double. -/
def floor (x : Float) : Float :=
  match x.toModel.unpack with
  | .finite sign mantissa (.negSucc e) _ => ofWhole (wholePart sign mantissa (e + 1))
  | _ => x

end Raceway.Double
