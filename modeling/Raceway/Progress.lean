/-!
# Progress of a racer

Which gate a racer has to cross next, and what it has done so far. Counters stop at the largest
number that they can hold.
-/

namespace Raceway

/-- The state that a racer carries from query to query. It belongs to the racer, not to a track,
so the next gate may be one that a track does not have. -/
structure Progress where
  /-- The next gate to be crossed. -/
  cursor : UInt64
  /-- How often the cursor has gone round. -/
  laps : UInt32
  /-- Gates crossed in all. -/
  crossings : UInt64
  /-- Queries in which a wall was touched. -/
  collisions : UInt64
deriving DecidableEq, Repr

/-- The next number of a width, or the same one where there is no next. -/
def countUp {w : Nat} (n : BitVec w) : BitVec w :=
  if n + 1 = 0 then n else n + 1

def countUp64 (n : UInt64) : UInt64 :=
  .ofBitVec (countUp n.toBitVec)

def countUp32 (n : UInt32) : UInt32 :=
  .ofBitVec (countUp n.toBitVec)

namespace Progress

/-- A racer at the start. -/
def start : Progress := ⟨0, 0, 0, 0⟩

instance : Inhabited Progress := ⟨start⟩

/-- Crosses the gate at the cursor, on a track with this many gates. Behind the last gate the
first one follows, and a lap is complete. Without gates nothing happens. -/
def advance (p : Progress) (gateCount : Nat) : Progress :=
  if gateCount = 0 then p
  else
    let next := p.cursor + 1
    let p := { p with crossings := countUp64 p.crossings, cursor := next }
    if gateCount ≤ next.toNat then { p with cursor := 0, laps := countUp32 p.laps } else p

/-- Touches a wall, which sends the racer back to the first gate if `reset` is set. -/
def collide (p : Progress) (reset : Bool) : Progress :=
  { p with
    collisions := countUp64 p.collisions
    cursor := if reset then 0 else p.cursor }

/-- Sends a cursor that points behind the last gate back to the first one. -/
def settle (p : Progress) (gateCount : Nat) : Progress :=
  if gateCount ≤ p.cursor.toNat then { p with cursor := 0 } else p

end Progress

end Raceway
