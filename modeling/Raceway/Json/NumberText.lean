/-!
# The text of doubles

A number stands in a text as a literal: a sign, digits without leading zeros, and optionally a
fraction and an exponent. The grammar says nothing about how a double is written, and little about
which double a literal is read as. Both are left open here.
-/

namespace Raceway.Json

/-- The number that digits in base ten stand for. -/
def digitsValue (digits : List Char) : Nat :=
  digits.foldl (fun n c => 10 * n + (c.toNat - '0'.toNat)) 0

/-- The parts of a number literal. -/
structure Literal where
  negative : Bool
  whole : List Char
  /-- The digits behind the point, none if there is no point. -/
  fraction : List Char
  exponent : Option Int

namespace Literal

/-- All digits of a literal as one number. -/
def digits (l : Literal) : Nat :=
  digitsValue (l.whole ++ l.fraction)

/-- The power of ten that the last digit stands for. -/
def scale (l : Literal) : Int :=
  l.exponent.getD 0 - l.fraction.length

/-- Whether a literal has neither fraction nor exponent. -/
def isWhole (l : Literal) : Bool :=
  l.fraction.isEmpty && l.exponent.isNone

end Literal

/-- A way to write doubles and to read them. A reader need not find the nearest double: one that
rounds on the way, or drops digits, may miss it. -/
class NumberText where
  /-- The text that is written for a double. -/
  writeDouble : Float → List Char
  /-- The double that a literal is read as, unless it is an integer of at most 64 bits; an infinity
  if the literal is too large for a double. -/
  valueOf : Literal → Float

export NumberText (writeDouble)

end Raceway.Json
