import Raceway.Session.Basic
import Raceway.Track.Run
/-!
# Runs of a session

A session and the racers that others keep, as they go through a list of requests.
-/

namespace Raceway.Session

/-- What a session can be asked to do. `racer` names a racer that someone else keeps, and the clock
shows `millis` for a query when it is over. -/
inductive Request where
  | load (inner outer checkpoints : List Float) (field : Playfield Float)
  | loadText (text : List Char)
  | queryOwn (rays : List Float) (position : Point Float) (hitbox : List Float) (millis : Float)
  | queryOther (racer : String) (rays : List Float) (position : Point Float) (hitbox : List Float)
    (millis : Float)
  | resetOwn
  | resetOther (racer : String)
  | setReset (on : Bool)
  | setMetrics (on : Bool)
  | readStatus
  | readMetrics
  | readTileWalls (index : Nat)
  | readSummary

/-- What a session answers. -/
inductive Reply where
  | refused (error : TrackError Float)
  | status (status : Status)
  | answeredOwn (outcome : Outcome) (status : Status)
  | answeredOther (outcome : Outcome) (p : Progress) (status : Status)
  | progress (p : Progress)
  | metrics (m : Metrics)
  | tileWalls (walls : List Nat)
  | summary (s : Summary)

/-- A session together with the racers that others keep, on a thread of its own. -/
structure Meeting where
  session : Session
  racers : Racers
  counters : Counters := Counters.zero

namespace Meeting

/-- An empty session with every racer at the start. -/
def empty : Meeting where
  session := Session.empty
  racers := Racers.start

/-- An action on the session, and what the session shows of itself after it. -/
def onSession (action : Action Session Unit) : Action Meeting Reply := do
  Action.focus Meeting.session (fun m session => { m with session := session }) action
  let m ← get
  return .status m.session.status

/-- Answers a query of the session's own racer. -/
def answerOwn (query : Query) (millis : Float) : Action Meeting Reply := do
  let m ← get
  let (session, counters, step) := m.session.answerOwn m.counters query millis
  set { m with session := session, counters := counters }
  return .answeredOwn step.outcome session.status

/-- Answers a query of a racer that someone else keeps. -/
def answerOther (racer : String) (query : Query) (millis : Float) : Action Meeting Reply := do
  let m ← get
  let (session, counters, step) :=
    m.session.answerOther m.counters (m.racers racer) query millis
  set (⟨session, m.racers.update racer step.progress, counters⟩ : Meeting)
  return .answeredOther step.outcome step.progress session.status

/-- Sends a racer that someone else keeps back to the start. -/
def resetOther (racer : String) : Action Meeting Reply := do
  modify fun m => { m with racers := m.racers.update racer Progress.start }
  return .progress Progress.start

/-- A reply that only looks at the meeting. -/
def read (reply : Meeting → Reply) : Action Meeting Reply := do
  let m ← get
  return reply m

variable [Json.NumberText]

/-- Carries out one request, unless it is refused. -/
def perform? : Request → Action Meeting Reply
  | .load inner outer checkpoints field => onSession (load inner outer checkpoints field)
  | .loadText text => onSession (loadText text)
  | .queryOwn rays position hitbox millis => do
    answerOwn (← Action.check (query rays position hitbox)) millis
  | .queryOther racer rays position hitbox millis => do
    answerOther racer (← Action.check (query rays position hitbox)) millis
  | .resetOwn => onSession (modify resetOwn)
  | .resetOther racer => resetOther racer
  | .setReset on => onSession (onTrack (modify fun track => track.setReset on))
  | .setMetrics on => onSession (onTrack (modify fun track => track.setMetrics on))
  | .readStatus => read fun m => .status m.session.status
  | .readMetrics => read fun m => .metrics m.session.track.metrics
  | .readTileWalls index => read fun m => .tileWalls (m.session.track.tileWalls index)
  | .readSummary => read fun m => .summary (Summary.ofTrack m.session.track)

/-- Carries out one request. The error of one that is refused is its reply. -/
def perform (m : Meeting) (request : Request) : Meeting × Reply :=
  match perform? request m with
  | .ok reply m => (m, reply)
  | .error error m => (m, .refused error)

/-- Carries out requests in order and collects the replies. -/
def run (m : Meeting) : List Request → Meeting × List Reply
  | [] => (m, [])
  | request :: requests =>
    let (m, reply) := m.perform request
    let (m, replies) := m.run requests
    (m, reply :: replies)

end Meeting

end Raceway.Session
