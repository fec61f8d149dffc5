import Raceway.Json.Scalar
/-!
# Lists

Readers for lists of any length and for pairs of numbers.
-/

namespace Raceway.Json

/-- Tells whether the list has a next item, and passes over the comma in front of it. There is a
comma before every item but the first, and no closing bracket may follow it. -/
def nextItem (first : Bool) (s : List Char) : Except Fault (Passed s Bool) :=
  match nextChar s with
  | none => .error .endInList
  | some c =>
    if c.value == ']' then .ok (.missing false)
    else if first then .ok (.missing true)
    else if c.value == ',' then
      match nextChar c.rest with
      | none => .error .endInValue
      | some d =>
        if d.value == ']' then .error .trailingComma
        else .ok ⟨true, c.rest, Nat.le_of_lt c.shorter⟩
    else .error .noListSeparator

/-- Reads the closing bracket of a list that has no room for more items. -/
def readListEnd : Reader Unit := fun s =>
  match nextChar s with
  | none => .error .endInList
  | some c =>
    if c.value == ']' then .ok (c.map fun _ => ())
    else if c.value == ',' && (nextChar c.rest).any (·.value == ']') then .error .trailingComma
    else .error .trailingCharacters

/-- Reads the items of a list up to its closing bracket. -/
def readItems {α : Type} (item : Reader α) (first : Bool) (s : List Char) :
    Except Fault (Taken s (List α)) := do
  let next ← nextItem first s
  if next.value then
    let t ← item next.rest
    let more ← readItems item false t.rest
    return next.andThen (t.andThen (more.map (t.value :: ·)))
  else return (← readListEnd s).map fun _ => []
termination_by s.length
decreasing_by exact Nat.lt_of_lt_of_le t.shorter next.le

/-- Reads a list. -/
def readList [NumberText] {α : Type} (item : Reader α) : Reader (List α) :=
  readBehindBlank fun
    | '[' :: r => do return (← readItems item true r).behind '['
    | s => .error (mismatch .list s)

/-- Reads an item of a list that has to have one; `count` items have been read. -/
def readRequired {α : Type} (item : Reader α) (count : Nat) (expected : Expected) : Reader α :=
  fun s => do
    let next ← nextItem (count == 0) s
    if next.value then return next.andThen (← item next.rest)
    else .error (.wrongLength count expected)

/-- Reads a list of exactly two numbers. -/
def readPair [NumberText] : Reader (Float × Float) :=
  readBehindBlank fun
    | '[' :: r => do
      let x ← readRequired readDouble 0 .pair r
      let y ← readRequired readDouble 1 .pair x.rest
      let close ← readListEnd y.rest
      return (x.andThen (y.andThen (close.map fun _ => (x.value, y.value)))).behind '['
    | s => .error (mismatch .pair s)

end Raceway.Json
