import Raceway.Track.Run
/-!
# Threads

The tracks of a thread take turns. They share its racers, and they count their work with the same
counters.
-/

namespace Raceway.Track

/-- The tracks and racers of a thread by name, and its counters. Tracks that have not been asked
anything are empty. -/
structure Thread where
  tracks : String → Track
  racers : Racers
  counters : Counters

namespace Thread

def start : Thread where
  tracks := fun _ => Track.empty
  racers := Racers.start
  counters := Counters.zero

/-- One track of a thread, as a request finds it. -/
def meeting (thread : Thread) (name : String) : Meeting :=
  ⟨thread.tracks name, thread.racers, thread.counters⟩

variable [Json.NumberText]

/-- Carries out one request on a track. -/
def perform (thread : Thread) (name : String) (request : Request) : Thread × Reply :=
  let (m, reply) := (thread.meeting name).perform request
  (⟨fun other => if other = name then m.track else thread.tracks other, m.racers, m.counters⟩,
    reply)

/-- Carries out requests in order, each on the track that it names, and collects the replies. -/
def run (thread : Thread) : List (String × Request) → Thread × List Reply
  | [] => (thread, [])
  | (name, request) :: requests =>
    let (thread, reply) := thread.perform name request
    let (thread, replies) := thread.run requests
    (thread, reply :: replies)

end Thread

end Raceway.Track
