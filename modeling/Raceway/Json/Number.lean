import Raceway.Double.Floor
import Raceway.Json.Reader
/-!
# Numbers

Readers for the number literals of a JSON text, and the numbers that they stand for.
-/

namespace Raceway.Json

/-- The value of a literal. Integers of up to 64 bits are kept as they are; `-0` is a double. -/
inductive Number where
  | natural (n : Nat)
  | negative (n : Nat)
  | floating (x : Float)

/-- Reads one or more digits; `cut` is the fault of a text that ends here. -/
def readDigits (cut : Fault) : Reader (List Char)
  | [] => .error cut
  | c :: r =>
    if c.isDigit then
      .ok ⟨c :: r.takeWhile Char.isDigit, r.dropWhile Char.isDigit,
        Nat.lt_succ_of_le (List.dropWhile_sublist Char.isDigit).length_le⟩
    else .error .badNumber

/-- Reads the digits in front of the point. A zero stands alone. -/
def readWhole (cut : Fault) : Reader (List Char) := fun s => do
  let t ← readDigits cut s
  if t.value.head? == some '0' && t.value.length != 1 then .error .badNumber
  else return t

/-- Reads the digits after the point, if there is a point. -/
def readFraction (cut : Fault) (s : List Char) : Except Fault (Passed s (List Char)) :=
  match s with
  | '.' :: r => do
    let t ← readDigits cut r
    return ⟨t.value, t.rest, Nat.le_of_lt (Nat.lt_succ_of_lt t.shorter)⟩
  | _ => .ok (.missing [])

/-- Reads the digits of an exponent behind an optional sign. -/
def readSigned (cut : Fault) : Reader Int
  | '-' :: r => do
    let t ← readDigits cut r
    return (t.map fun digits => -(digitsValue digits : Int)).behind '-'
  | '+' :: r => do
    let t ← readDigits cut r
    return (t.map fun digits => (digitsValue digits : Int)).behind '+'
  | s => do
    let t ← readDigits cut s
    return t.map fun digits => (digitsValue digits : Int)

/-- Reads the exponent, if there is one. -/
def readExponent (cut : Fault) (s : List Char) : Except Fault (Passed s (Option Int)) :=
  match s with
  | c :: r =>
    if c == 'e' || c == 'E' then do
      let t ← readSigned cut r
      return ⟨some t.value, t.rest, Nat.le_of_lt (Nat.lt_succ_of_lt t.shorter)⟩
    else .ok (.missing none)
  | [] => .ok (.missing none)

/-- Reads a literal behind its sign. -/
def readUnsigned (cut : Fault) (negative : Bool) : Reader Literal := fun s => do
  let whole ← readWhole cut s
  let fraction ← readFraction cut whole.rest
  let exponent ← readExponent cut fraction.rest
  return ⟨⟨negative, whole.value, fraction.value, exponent.value⟩, exponent.rest,
    Nat.lt_of_le_of_lt (Nat.le_trans exponent.le fraction.le) whole.shorter⟩

/-- Reads a number literal. -/
def readLiteral (cut : Fault) : Reader Literal
  | '-' :: r => do
    let t ← readUnsigned cut true r
    return t.behind '-'
  | s => readUnsigned cut false s

/-- The value of a literal, unless it is too large for a double. -/
def Literal.number [NumberText] (l : Literal) : Except Fault Number :=
  if l.isWhole && !l.negative && decide (l.digits < UInt64.size) then .ok (.natural l.digits)
  else if l.isWhole && l.negative && decide (0 < l.digits ∧ 2 * l.digits ≤ UInt64.size) then
    .ok (.negative l.digits)
  else if (NumberText.valueOf l).isFinite then .ok (.floating (NumberText.valueOf l))
  else .error .numberTooLarge

namespace Number

/-- How a number counts as something found in the text. -/
def found : Number → Found
  | natural n => .integer n
  | negative n => .integer (-n)
  | floating x => .floating x

/-- The double of a number. Integers are rounded to the nearest one. -/
def toDouble : Number → Float
  | natural n => Double.ofWhole n
  | negative n => Double.ofWhole (-n)
  | floating x => x

end Number

/-- Reads a number. -/
def readNumber [NumberText] : Reader Number := fun s => do
  let t ← readLiteral .endInValue s
  let n ← t.value.number
  return t.map fun _ => n

/-- Whether a character starts a number. -/
def startsNumber (c : Char) : Bool :=
  c == '-' || c.isDigit

end Raceway.Json
