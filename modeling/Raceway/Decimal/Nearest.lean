import Raceway.Decimal.Text
import Raceway.Json.NumberText
/-!
# Shortest and nearest

A double is written as its shortest decimal, or as `null` if it is not finite, and a literal is
read as the double nearest to it.
-/

namespace Raceway

/-- The double nearest to `digits * 10 ^ scale`. -/
def Decimal.toDouble (digits : Nat) : Int → Float
  | .ofNat e => Float.ofScientific digits false e
  | .negSucc e => Float.ofScientific digits true (e + 1)

open Decimal in
/-- Doubles are written as their shortest decimals and literals are rounded once. A reader that
rounds the powers of ten on the way as well is a different one. -/
@[reducible]
def Json.NumberText.nearest : NumberText where
  writeDouble x := if x.isFinite then scientific.text x else "null".toList
  valueOf l :=
    let size := Decimal.toDouble l.digits l.scale
    if l.negative then -size else size

end Raceway
