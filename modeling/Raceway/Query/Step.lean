import Raceway.Course
import Raceway.Progress
import Raceway.Query.Contact
/-!
# Queries

One query of a racer: a fan of rays, the test of its hitbox against the walls, and the test
against the gate that it has to cross next.
-/

namespace Raceway

/-- What a query reports. -/
structure Outcome where
  rays : List RayHit
  /-- Whether the hitbox touched a wall. -/
  playerHit : Bool
  /-- Whether the hitbox crossed the next gate. -/
  checkpointHit : Bool

/-- What a racer asks: where it is, what it fills, and where its rays are to go. -/
structure Query where
  targets : List (Point Float)
  position : Point Float
  hitbox : Hitbox Float

/-- A query's report, the progress that it leaves, and its effort. -/
structure Step where
  outcome : Outcome
  progress : Progress
  effort : Effort

namespace Progress

/-- Crosses the next gate if the hitbox meets it, and tells whether it did. At most one gate is
crossed. -/
def crossGate (p : Progress) (gates : List (Segment Float)) (hitbox : Hitbox Float) :
    Progress × Bool :=
  if gates.isEmpty then (p, false)
  else
    let p := p.settle gates.length
    match gates[p.cursor.toNat]? with
    | some gate =>
      if hitbox.crosses gate then (p.advance gates.length, true) else (p, false)
    | none => (p, false)

end Progress

namespace Query

/-- Answers a query. The walls come before the gates: a collision that resets makes the first
gate the next one. -/
def run (query : Query) (course : Course Float) (reset : Bool) (p : Progress) : Step :=
  let place := course.grid.tileOf? query.position
  let rays := course.grid.fan place query.position query.targets
  let contact := course.grid.contact place query.hitbox
  let p := if contact.result then p.collide reset else p
  let (p, crossed) := p.crossGate course.gates query.hitbox
  ⟨⟨rays.result, contact.result, crossed⟩, p, rays.effort + contact.effort⟩

end Query

namespace Outcome

/-- The points that the rays report, as a flat list of coordinates. -/
def flatPoints (outcome : Outcome) : List Float :=
  outcome.rays.flatMap fun hit => [hit.point.x, hit.point.y]

def distances (outcome : Outcome) : List Float :=
  outcome.rays.map RayHit.distance

end Outcome

end Raceway
