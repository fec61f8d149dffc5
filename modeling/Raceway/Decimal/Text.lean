import Raceway.Decimal.Shortest
/-!
# Doubles as decimal text

Two notations for the shortest decimal of a double: plain text, which never has an exponent, and
the text of a data file, which writes very large and very small numbers with one.
-/

namespace Raceway.Decimal

open Float.Model (UnpackedFloat)

/-- How a decimal is written. -/
structure Style where
  tie : Tie
  /-- Whether whole numbers end in a point and a zero. -/
  pointZero : Bool
  /-- Whether a number with this exponent of ten is written without exponent. -/
  isPlain : Int → Bool

/-- All places are written out, and whole numbers have no point. -/
def plain : Style where
  tie := .up
  pointZero := false
  isPlain _ := true

/-- From `10 ^ (-5)` up to below `10 ^ 16` all places are written out. -/
def scientific : Style where
  tie := .toEven
  pointZero := true
  isPlain e := decide (-5 ≤ e) && decide (e ≤ 15)

/-- The digits of a number in base ten. -/
def natText (n : Nat) : List Char :=
  Nat.toDigits 10 n

/-- An exponent with its sign. -/
def exponentText : Int → List Char
  | .ofNat n => '+' :: natText n
  | .negSucc n => '-' :: natText (n + 1)

namespace Style

def wholeMark (s : Style) : List Char :=
  if s.pointZero then ['.', '0'] else []

/-- A decimal without exponent; `point` is the place of the decimal point, counted from the
first digit. -/
def positional (s : Style) (digits : List Char) (point : Int) : List Char :=
  if point ≤ 0 then
    '0' :: '.' :: (List.replicate (-point).toNat '0' ++ digits)
  else if digits.length ≤ point.toNat then
    digits ++ List.replicate (point.toNat - digits.length) '0' ++ s.wholeMark
  else
    digits.take point.toNat ++ '.' :: digits.drop point.toNat

/-- A decimal with one digit before the point and the exponent `e`. -/
def withExponent (digits : List Char) (e : Int) : List Char :=
  let fraction := match digits.drop 1 with
    | [] => []
    | more => '.' :: more
  digits.take 1 ++ fraction ++ 'e' :: exponentText e

def decimal (s : Style) (d : Digits) : List Char :=
  let digits := natText d.digits
  let point := digits.length + d.scale
  if s.isPlain (point - 1) then s.positional digits point
  else withExponent digits (point - 1)

def signText : UnpackedFloat.Sign → List Char
  | .positive => []
  | .negative => ['-']

/-- The text of a double. -/
def text (s : Style) (x : Float) : List Char :=
  match x.toModel.unpack with
  | .notANumber => ['N', 'a', 'N']
  | .infinity sign => signText sign ++ ['i', 'n', 'f']
  | .zero sign => signText sign ++ '0' :: s.wholeMark
  | .finite sign mantissa exponent _ =>
    signText sign ++ s.decimal ((Magnitude.mk mantissa exponent).shortest s.tie).strip

end Style

end Raceway.Decimal
