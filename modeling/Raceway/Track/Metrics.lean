import Raceway.Query.Step
/-!
# Metrics of a track

Numbers about the last query of a track, and how many queries it has answered. How much work a
query takes is counted by the thread that runs it, for all its tracks together.
-/

namespace Raceway

/-- What a thread has counted since its counters were last set to zero. Counters stop at the
largest number that they can hold. -/
structure Counters where
  wallTests : UInt64
  fallbackScans : UInt64
deriving DecidableEq, Repr

namespace Counters

def zero : Counters := ⟨0, 0⟩

/-- Counts the effort of a search. -/
def add (c : Counters) (effort : Effort) : Counters where
  wallTests := UInt64.ofNatClamp (c.wallTests.toNat + effort.wallTests)
  fallbackScans := UInt64.ofNatClamp (c.fallbackScans.toNat + effort.fallbackScans)

end Counters

/-- Numbers about one query. They are all zero while no metrics are taken. -/
structure Metrics where
  /-- How long the query took, in milliseconds. -/
  millis : Float
  rays : UInt32
  raysHit : UInt32
  wallTests : UInt32
  fallbackScans : UInt32
  playerHit : Bool
  checkpointHit : Bool
  /-- Queries answered since metrics are taken. -/
  queriesTotal : UInt64
deriving DecidableEq, Repr

namespace Metrics

def zero : Metrics := ⟨0, 0, 0, 0, 0, false, false, 0⟩

/-- Forgets the last query, but not how many there were. -/
def forget (m : Metrics) : Metrics :=
  { zero with queriesTotal := m.queriesTotal }

/-- The numbers of one more query, with what has been counted for it and the time that it took.
Counts too large for a word are given as the largest word. -/
def record (m : Metrics) (outcome : Outcome) (counters : Counters) (millis : Float) :
    Metrics where
  millis := millis
  rays := UInt32.ofNat outcome.rays.length
  raysHit := UInt32.ofNat (outcome.rays.countP RayHit.isHit)
  wallTests := UInt32.ofNatClamp counters.wallTests.toNat
  fallbackScans := UInt32.ofNatClamp counters.fallbackScans.toNat
  playerHit := outcome.playerHit
  checkpointHit := outcome.checkpointHit
  queriesTotal := countUp64 m.queriesTotal

end Metrics

end Raceway
