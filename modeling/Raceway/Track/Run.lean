import Raceway.Track.Summary
/-!
# Runs of a track

A track and the racers on it, as they go through a list of requests.
-/

namespace Raceway

/-- The progress of every racer by name. Racers that have done nothing are at the start. -/
abbrev Racers := String → Progress

namespace Racers

def start : Racers := fun _ => Progress.start

def update (racers : Racers) (name : String) (p : Progress) : Racers :=
  fun other => if other = name then p else racers other

end Racers

namespace Track

/-- What a track can be asked to do. The clock shows `millis` for a query when it is over. -/
inductive Request where
  | load (layout : Layout Float) (settings : Settings Float)
  | loadText (text : List Char)
  | query (racer : String) (query : Query) (millis : Float)
  | setProgress (racer : String) (p : Progress)
  | setMetrics (on : Bool)
  | setReset (on : Bool)
  | readMetrics
  | readTrack
  | readTileWalls (index : Nat)
  | readTileOf (point : Point Float)
  | readSummary

/-- What a track answers. -/
inductive Reply where
  | done
  | refused (error : TrackError Float)
  | answered (step : Step)
  | progress (p : Progress)
  | metrics (m : Metrics)
  | settings (s : Settings Float)
  | track (t : Track)
  | tileWalls (walls : List Nat)
  | tile (index : Option Nat)
  | summary (s : Summary)

/-- A track with its racers, on a thread of its own. -/
structure Meeting where
  track : Track
  racers : Racers
  counters : Counters := Counters.zero

namespace Meeting

/-- An empty track with every racer at the start. -/
def empty : Meeting where
  track := Track.empty
  racers := Racers.start

/-- The meeting and the reply after an attempt to load. -/
def attempt (m : Meeting) (load : Action Track Unit) : Meeting × Reply :=
  match load m.track with
  | .ok _ track => ({ m with track := track }, .done)
  | .error error track => ({ m with track := track }, .refused error)

variable [Json.NumberText]

/-- Carries out one request. -/
def perform (m : Meeting) : Request → Meeting × Reply
  | .load layout settings => m.attempt (Track.load layout settings)
  | .loadText text => m.attempt (Track.loadText text)
  | .query racer query millis =>
    let (track, counters, step) := m.track.answerOn m.counters (m.racers racer) query millis
    (⟨track, m.racers.update racer step.progress, counters⟩, .answered step)
  | .setProgress racer p => ({ m with racers := m.racers.update racer p }, .progress p)
  | .setMetrics on =>
    let track := m.track.setMetrics on
    ({ m with track := track }, .metrics track.metrics)
  | .setReset on =>
    let track := m.track.setReset on
    ({ m with track := track }, .settings track.settings)
  | .readMetrics => (m, .metrics m.track.metrics)
  | .readTrack => (m, .track m.track)
  | .readTileWalls index => (m, .tileWalls (m.track.tileWalls index))
  | .readTileOf point => (m, .tile (m.track.course.grid.tileOf? point))
  | .readSummary => (m, .summary (Summary.ofTrack m.track))

/-- Carries out requests in order and collects the replies. -/
def run (m : Meeting) : List Request → Meeting × List Reply
  | [] => (m, [])
  | request :: requests =>
    let (m, reply) := m.perform request
    let (m, replies) := m.run requests
    (m, reply :: replies)

end Meeting

end Track

end Raceway
