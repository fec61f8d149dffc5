import Raceway.Track.Summary
/-!
# Sessions

A session drives a track with flat lists of numbers. It has a racer of its own, which starts anew
with every course, and it also answers for racers that others keep.
-/

namespace Raceway

/-- A track with a racer of its own. -/
structure Session where
  track : Track
  racer : Progress

namespace Session

def empty : Session := ⟨Track.empty, Progress.start⟩

/-- Sends the session's own racer back to the start. -/
def resetOwn (session : Session) : Session :=
  { session with racer := Progress.start }

/-- An action on the track of a session. -/
def onTrack {β : Type} : Action Track β → Action Session β :=
  Action.focus Session.track fun session track => { session with track := track }

/-- Loads a layout of flat lists, and sends the session's own racer back to the start. Whether
collisions reset is not part of the lists, and stays as it is. -/
def load (inner outer checkpoints : List Float) (field : Playfield Float) :
    Action Session Unit := do
  let layout ← Action.check (Layout.ofFlat inner outer checkpoints)
  let session ← get
  onTrack (Track.load layout ⟨field, session.track.settings.resetOnCollision⟩)
  modify resetOwn

/-- Loads the bundle in a text, and sends the session's own racer back to the start. -/
def loadText [Json.NumberText] (text : List Char) : Action Session Unit := do
  onTrack (Track.loadText text)
  modify resetOwn

/-- The query of flat lists of ray targets and hitbox corners. The rays are looked at first. -/
def query (rays : List Float) (position : Point Float) (hitbox : List Float) :
    Except (TrackError Float) Query := do
  let targets ← Point.ofFlat .rays rays
  let hitbox ← Hitbox.ofFlat hitbox
  return ⟨targets, position, hitbox⟩

/-- Answers a query of the session's own racer. -/
def answerOwn (session : Session) (counters : Counters) (query : Query) (millis : Float) :
    Session × Counters × Step :=
  let (track, counters, step) := session.track.answerOn counters session.racer query millis
  (⟨track, step.progress⟩, counters, step)

/-- Answers a query of another racer. -/
def answerOther (session : Session) (counters : Counters) (p : Progress) (query : Query)
    (millis : Float) : Session × Counters × Step :=
  let (track, counters, step) := session.track.answerOn counters p query millis
  ({ session with track := track }, counters, step)

/-- What a session shows of itself. The cursor is cut down to a word. -/
structure Status where
  cursor : UInt32
  laps : UInt32
  wallCount : Nat
  gateCount : Nat
  columns : UInt32
  rows : UInt32
  tileCount : Nat

def status (session : Session) : Status where
  cursor := session.racer.cursor.toUInt32
  laps := session.racer.laps
  wallCount := session.track.course.grid.walls.length
  gateCount := session.track.course.gates.length
  columns := session.track.course.grid.columns
  rows := session.track.course.grid.rows
  tileCount := session.track.course.grid.tiles.size

end Session

end Raceway
