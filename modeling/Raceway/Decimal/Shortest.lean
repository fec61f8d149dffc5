/-!
# Shortest decimals

The fewest decimal digits that tell a double from all others. The reals that round to a double
form an interval around it; of the decimals in that interval those with the fewest digits are
taken, and of these the nearest one.
-/

namespace Raceway.Decimal

/-- The positive real `mantissa * 2 ^ exponent`, the size of a finite double. -/
structure Magnitude where
  mantissa : Nat
  exponent : Int

/-- The decimal `digits * 10 ^ scale`. -/
structure Digits where
  digits : Nat
  scale : Int
deriving DecidableEq, Repr

/-- Which of two equally near decimals is taken. -/
inductive Tie where
  | toEven
  | up

def tenTo (n : Nat) : Nat :=
  Nat.pow 10 n

namespace Magnitude

/-- The size of a double as a fraction of units `10 ^ grid`: numerator, denominator and the part
of the numerator that is not the mantissa. -/
structure Ratio where
  num : Nat
  den : Nat
  unit : Nat

def inUnits (x : Magnitude) (grid : Int) : Ratio :=
  let unit := (tenTo (-grid).toNat) <<< x.exponent.toNat
  ⟨x.mantissa * unit, (tenTo grid.toNat) <<< (-x.exponent).toNat, unit⟩

/-- Whether the gap to the double below is half the gap to the double above, as it is at a power
of two. -/
def narrowBelow (x : Magnitude) : Bool :=
  x.mantissa == 1 <<< 52 && decide (-1074 < x.exponent)

/-- Whether `n` units round to `x`. The ends of the interval lie halfway to the neighbours and
belong to it when the mantissa is even. -/
def holds (x : Magnitude) (r : Ratio) (n : Nat) : Bool :=
  let low := (4 * x.mantissa - if x.narrowBelow then 1 else 2) * r.unit
  let high := (4 * x.mantissa + 2) * r.unit
  let point := 4 * (n * r.den)
  if x.mantissa % 2 == 0 then decide (low ≤ point ∧ point ≤ high)
  else decide (low < point ∧ point < high)

/-- The number of digits before the decimal point: the least `k` with `x < 10 ^ k`. The binary
logarithm leaves two candidates. -/
def wholeDigits (x : Magnitude) : Int :=
  let k := (x.mantissa.log2 + x.exponent) * 30103 / 100000 + 1
  let r := x.inUnits k
  if r.num < r.den then k else k + 1

/-- The nearest whole number of units `10 ^ grid` that rounds to `x`, if there is one. Only the
two neighbours of `x` can be it. -/
def onGrid (x : Magnitude) (tie : Tie) (grid : Int) : Option Nat :=
  let r := x.inUnits grid
  let below := r.num / r.den
  match x.holds r below, x.holds r (below + 1) with
  | false, false => none
  | true, false => some below
  | false, true => some (below + 1)
  | true, true =>
    match compare (2 * r.num) ((2 * below + 1) * r.den), tie with
    | .lt, _ => some below
    | .gt, _ => some (below + 1)
    | .eq, .up => some (below + 1)
    | .eq, .toEven => some (if below % 2 == 0 then below else below + 1)

/-- All digits of `x`. -/
def exact (x : Magnitude) : Digits :=
  match x.exponent with
  | .ofNat e => ⟨x.mantissa <<< e, 0⟩
  | .negSucc e => ⟨x.mantissa * Nat.pow 5 (e + 1), .negSucc e⟩

/-- The shortest decimal that rounds to `x`: one digit is tried first, then two, up to the
seventeen that every double gets by with. -/
def shortest (x : Magnitude) (tie : Tie) : Digits :=
  let whole := x.wholeDigits
  let found := (List.range 17).findSome? fun n =>
    let grid := whole - ((n : Nat) + 1)
    (x.onGrid tie grid).map fun digits => (⟨digits, grid⟩ : Digits)
  found.getD x.exact

end Magnitude

/-- The same decimal without trailing zeros. -/
def Digits.strip (d : Digits) : Digits :=
  if h : d.digits ≠ 0 ∧ d.digits % 10 = 0 then
    Digits.strip ⟨d.digits / 10, d.scale + 1⟩
  else d
termination_by d.digits
decreasing_by exact Nat.div_lt_self (Nat.pos_of_ne_zero h.1) (by decide)

end Raceway.Decimal
