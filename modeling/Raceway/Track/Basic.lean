import Raceway.Action
import Raceway.Bundle
import Raceway.Track.Metrics
/-!
# Tracks

A track is loaded with one layout after another and answers the queries of racers. A load that
fails leaves the track as it was.
-/

namespace Raceway

/-- A course with its settings, and the metrics of its queries. -/
structure Track where
  course : Course Float
  settings : Settings Float
  /-- Whether a course has ever been loaded. -/
  loaded : Bool
  metricsOn : Bool
  metrics : Metrics

namespace Track

/-- A track on which nothing has been loaded: queries find neither walls nor gates. -/
def empty : Track where
  course := Course.empty
  settings := Settings.standard
  loaded := false
  metricsOn := false
  metrics := Metrics.zero

/-- Puts a course in place of the one before. -/
def replace (track : Track) (course : Course Float) (settings : Settings Float) : Track :=
  { track with
    course := course
    settings := settings
    loaded := true
    metrics := track.metrics.forget }

/-- Loads a layout in place of the one before. The course is laid before the track is changed. -/
def load (layout : Layout Float) (settings : Settings Float) : Action Track Unit := do
  let course ← Action.check (Course.lay layout settings.toPlayfield)
  modify fun track => track.replace course settings

/-- Loads the bundle in a text. -/
def loadText [Json.NumberText] (text : List Char) : Action Track Unit := do
  let bundle ← Action.check (Bundle.ofText text)
  load bundle.layout bundle.settings

/-- Answers a query of a racer. Where metrics are taken, those of the query before are
forgotten. -/
def answer (track : Track) (p : Progress) (query : Query) : Track × Step :=
  let step := query.run track.course track.settings.resetOnCollision p
  if track.metricsOn then
    ({ track with metrics := track.metrics.forget }, step)
  else (track, step)

/-- Counts the effort of a query that the track has answered; `millis` is what the clock shows for
it. Where metrics are taken, the counters of the thread are used for this query alone: they start
from zero, and are set to zero again when they have been read. -/
def measure (track : Track) (counters : Counters) (step : Step) (millis : Float) :
    Track × Counters :=
  if track.metricsOn then
    let counted := Counters.zero.add step.effort
    ({ track with metrics := track.metrics.record step.outcome counted millis }, Counters.zero)
  else (track, counters.add step.effort)

/-- Answers a query of a racer on a thread with these counters. -/
def answerOn (track : Track) (counters : Counters) (p : Progress) (query : Query)
    (millis : Float) : Track × Counters × Step :=
  let (track, step) := track.answer p query
  let (track, counters) := track.measure counters step millis
  (track, counters, step)

/-- Switches the metrics on or off. Off means zero. -/
def setMetrics (track : Track) (on : Bool) : Track :=
  { track with metricsOn := on, metrics := if on then track.metrics else Metrics.zero }

/-- Says whether collisions send racers back to the first gate. -/
def setReset (track : Track) (on : Bool) : Track :=
  { track with settings := { track.settings with resetOnCollision := on } }

/-- The indices of the walls that touch a tile, none where there is no such tile. -/
def tileWalls (track : Track) (index : Nat) : List Nat :=
  (track.course.grid.tileWalls index).map Wall.index

end Track

end Raceway
