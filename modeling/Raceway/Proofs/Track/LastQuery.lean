import Raceway.Proofs.Double.Whole
import Raceway.Proofs.Query.SearchEffort
import Raceway.Proofs.Track.Isolation
import Raceway.Track.Thread
/-!
# What the metrics tell

While a track takes metrics, they number its queries since they were switched on, and they describe
the last of them alone, unless a course has been loaded since.  The counters of the thread are
shared by all its tracks, with metrics or without, but what other tracks count never shows.
-/

namespace Raceway

/-! ## One query -/

@[simp]
theorem toNat_ofNatClamp64 (n : Nat) : (UInt64.ofNatClamp n).toNat = min n (2 ^ 64 - 1) := by
  rcases Nat.lt_or_ge n UInt64.size with h | h
  · rw [UInt64.toNat_ofNatClamp_of_lt h]
    exact (min_eq_left (Nat.le_sub_one_of_lt h)).symm
  · rw [UInt64.toNat_ofNatClamp_of_le h]
    exact (min_eq_right ((Nat.sub_le _ _).trans h)).symm

theorem toNat_ofNatClamp_zero_add (n : Nat) :
    (UInt32.ofNatClamp (UInt64.ofNatClamp (0 + n)).toNat).toNat = min n (2 ^ 32 - 1) := by
  simp [min_assoc]

theorem Query.length_raysGoingOn_le (query : Query) (grid : Grid Float) :
    (query.raysGoingOn grid).length ≤ query.targets.length :=
  (List.length_filter_le _ _).trans_eq (List.length_map _)

namespace Metrics

/-- The numbers of one query on a grid with this outcome, in a time that the clock has shown. -/
structure Describes (m : Metrics) (grid : Grid Float) (query : Query) (outcome : Outcome)
    (millis : Float) : Prop where
  millis_eq : m.millis = millis
  rays_eq : m.rays.toNat = query.targets.length
  raysHit_eq : m.raysHit.toNat = outcome.distances.countP Float.isFinite
  wallTests_eq : m.wallTests.toNat = min (query.wallTests grid) (2 ^ 32 - 1)
  fallbackScans_eq : m.fallbackScans.toNat = (query.raysGoingOn grid).length
  playerHit_eq : m.playerHit = outcome.playerHit
  checkpointHit_eq : m.checkpointHit = outcome.checkpointHit

/-- What is told of the last query on a grid: its numbers, if its rays can be numbered at all, or
nothing where there is no such query. -/
def Tells (m : Metrics) (grid : Grid Float) : Option (Query × Outcome × Float) → Prop
  | some (query, outcome, millis) =>
    query.targets.length < 2 ^ 32 → m.Describes grid query outcome millis
  | none => m = m.forget

theorem describes_record (m : Metrics) {query : Query} (hlength : query.targets.length < 2 ^ 32)
    (course : Course Float) (reset : Bool) (p : Progress) (millis : Float) :
    let step := query.run course reset p
    (m.record step.outcome (Counters.zero.add step.effort) millis).Describes course.grid query
      step.outcome millis := by
  have hrays := query.run_rays_length course reset p
  have hhit := List.countP_le_length (p := RayHit.isHit)
    (l := (query.run course reset p).outcome.rays)
  have hfar : (query.raysGoingOn course.grid).length ≤ 2 ^ 32 - 1 :=
    (query.length_raysGoingOn_le course.grid).trans (Nat.le_sub_one_of_lt hlength)
  rw [hrays] at hhit
  refine ⟨rfl, ?_, ?_, ?_, ?_, rfl, rfl⟩
  · rw [record, hrays]
    exact UInt32.toNat_ofNat_of_lt' hlength
  · rw [record, Outcome.distances, List.countP_map]
    exact UInt32.toNat_ofNat_of_lt' (hhit.trans_lt hlength)
  · rw [query.run_effort]
    exact toNat_ofNatClamp_zero_add _
  · rw [query.run_effort]
    exact (toNat_ofNatClamp_zero_add _).trans (min_eq_left hfar)

end Metrics

namespace Track

/-! ## Logs -/

/-- What happens to a track that its metrics can tell. -/
inductive Event where
  | loaded
  | switched (on : Bool)
  | answered (query : Query) (outcome : Outcome) (millis : Float)

namespace Event

/-- The event of a request, given the reply. Loads that are refused are no events. -/
def of? : Request → Reply → Option Event
  | .load .., .done | .loadText _, .done => some loaded
  | .setMetrics on, _ => some (switched on)
  | .query _ query millis, .answered step => some (answered query step.outcome millis)
  | _, _ => none

def switch? : Event → Option Bool
  | switched on => some on
  | _ => none

def isAnswer : Event → Bool
  | answered .. => true
  | _ => false

end Event

/-- Whether metrics are taken after a log: what its last switch says, and not before the first. -/
def isOn (log : List Event) : Bool :=
  (log.filterMap Event.switch?).getLast?.getD false

/-- The last query of a log with its outcome and its time, none if a course has been loaded after
it. -/
def lastQuery? (log : List Event) : Option (Query × Outcome × Float) :=
  match (log.filter fun event => event.switch?.isNone).getLast? with
  | some (.answered query outcome millis) => some (query, outcome, millis)
  | _ => none

/-- What a log says since metrics were last switched from off to on: they are off before that
switch, and no switch turns them off after it. -/
def SinceOn (log since : List Event) : Prop :=
  ∃ before, isOn before = false ∧ log = before ++ .switched true :: since ∧
    ∀ event ∈ since, event.switch? ≠ some false

/-- The metrics of a track, by its log. -/
structure Metered (log : List Event) (track : Track) : Prop where
  on_eq : track.metricsOn = isOn log
  off : track.metricsOn = false → track.metrics = Metrics.zero
  on : track.metricsOn = true → ∃ since, SinceOn log since ∧
    track.metrics.queriesTotal.toNat = min (since.countP Event.isAnswer) (2 ^ 64 - 1) ∧
    track.metrics.Tells track.course.grid (lastQuery? since)

section

variable {log since : List Event} {event : Event}

@[simp] theorem isOn_append_switched (log : List Event) (on : Bool) :
    isOn (log ++ [.switched on]) = on := by
  simp [isOn, Event.switch?]

theorem isOn_append (log : List Event) (h : event.switch? = none) :
    isOn (log ++ [event]) = isOn log := by
  simp [isOn, h]

@[simp] theorem lastQuery?_append_switched (log : List Event) (on : Bool) :
    lastQuery? (log ++ [.switched on]) = lastQuery? log := by
  simp [lastQuery?, Event.switch?]

@[simp]
theorem lastQuery?_append_loaded (log : List Event) : lastQuery? (log ++ [.loaded]) = none := by
  simp [lastQuery?, Event.switch?]

@[simp] theorem lastQuery?_append_answered (log : List Event) (query : Query) (outcome : Outcome)
    (millis : Float) :
    lastQuery? (log ++ [.answered query outcome millis]) = some (query, outcome, millis) := by
  simp [lastQuery?, Event.switch?]

theorem SinceOn.append (h : SinceOn log since) (event : Event)
    (hevent : event.switch? ≠ some false) :
    SinceOn (log ++ [event]) (since ++ [event]) := by
  obtain ⟨before, hbefore, hlog, hsince⟩ := h
  refine ⟨before, hbefore, by rw [hlog, List.append_assoc, List.cons_append], fun e he => ?_⟩
  rcases List.mem_append.mp he with he | he
  · exact hsince e he
  · rwa [List.mem_singleton.mp he]

theorem sinceOn_switched (h : isOn log = false) : SinceOn (log ++ [.switched true]) [] :=
  ⟨log, h, rfl, fun _ he => nomatch he⟩

end

/-! ## One request -/

section

variable {log : List Event} {track : Track}

theorem metered_empty : Metered [] Track.empty :=
  ⟨rfl, fun _ => rfl, fun h => nomatch h⟩

theorem Metered.replace (h : Metered log track) (course : Course Float)
    (settings : Settings Float) :
    Metered (log ++ [.loaded]) (track.replace course settings) where
  on_eq := h.on_eq.trans (isOn_append log rfl).symm
  off := fun hoff => congrArg Metrics.forget (h.off hoff)
  on := fun hon => by
    obtain ⟨since, hsince, htotal, -⟩ := h.on hon
    refine ⟨since ++ [.loaded], hsince.append .loaded (Option.some_ne_none false).symm, ?_, ?_⟩
    · rw [List.countP_append]
      exact htotal
    · rw [lastQuery?_append_loaded]
      rfl

theorem Metered.setMetrics (h : Metered log track) (on : Bool) :
    Metered (log ++ [.switched on]) (track.setMetrics on) where
  on_eq := (isOn_append_switched log on).symm
  off := fun hoff => if_neg (ne_true_of_eq_false hoff)
  on := fun hon => by
    obtain rfl : on = true := hon
    cases hbefore : track.metricsOn with
    | false =>
        refine ⟨[], sinceOn_switched (h.on_eq.symm.trans hbefore), ?_, ?_⟩
        · exact congrArg (fun m : Metrics => m.queriesTotal.toNat) (h.off hbefore)
        · exact (h.off hbefore).trans (congrArg Metrics.forget (h.off hbefore)).symm
    | true =>
        obtain ⟨since, hsince, htotal, htells⟩ := h.on hbefore
        refine ⟨since ++ [.switched true], hsince.append (.switched true) (by decide), ?_, ?_⟩
        · rw [List.countP_append]
          exact htotal
        · rw [lastQuery?_append_switched]
          exact htells

theorem answerOn_of_off (h : track.metricsOn = false) (counters : Counters) (p : Progress)
    (query : Query) (millis : Float) : (track.answerOn counters p query millis).1 = track := by
  obtain ⟨course, settings, loaded, on, metrics⟩ := track
  obtain rfl : on = false := h
  rfl

theorem answerOn_of_on (h : track.metricsOn = true) (counters : Counters) (p : Progress)
    (query : Query) (millis : Float) :
    let step := query.run track.course track.settings.resetOnCollision p
    (track.answerOn counters p query millis).1 =
      { track with
        metrics := track.metrics.forget.record step.outcome
          (Counters.zero.add step.effort) millis } := by
  obtain ⟨course, settings, loaded, on, metrics⟩ := track
  obtain rfl : on = true := h
  rfl

/-- A query is numbered and described if metrics are taken, and leaves no trace if they are not.
What the thread has counted before does not matter. -/
theorem Metered.answerOn (h : Metered log track) (counters : Counters) (p : Progress)
    (query : Query) (millis : Float) :
    Metered (log ++ [.answered query
        (query.run track.course track.settings.resetOnCollision p).outcome millis])
      (track.answerOn counters p query millis).1 := by
  cases hon : track.metricsOn with
  | false =>
      rw [answerOn_of_off hon]
      exact ⟨h.on_eq.trans (isOn_append log rfl).symm, h.off,
        fun htrue => absurd (hon.symm.trans htrue) Bool.false_ne_true⟩
  | true =>
      rw [answerOn_of_on hon]
      refine ⟨h.on_eq.trans (isOn_append log rfl).symm,
        fun hoff => absurd (hon.symm.trans hoff) Bool.false_ne_true.symm, fun _ => ?_⟩
      obtain ⟨since, hsince, htotal, -⟩ := h.on hon
      refine ⟨_, hsince.append (.answered query _ millis) (Option.some_ne_none false).symm, ?_, ?_⟩
      · have hnext : (countUp64 track.metrics.queriesTotal).toNat =
            min (since.countP Event.isAnswer + 1) (2 ^ 64 - 1) := by
          rw [countUp64_toNat, htotal]
          omega
        rw [List.countP_append]
        exact hnext
      · rw [lastQuery?_append_answered]
        exact fun hlength => Metrics.describes_record _ hlength _ _ _ millis

end

namespace Meeting

variable {log : List Event} {m : Meeting}

theorem metered_attempt {load : Action Track Unit} {event : Reply → Option Event}
    (hdone : event .done = some .loaded) (hrefused : ∀ error, event (.refused error) = none)
    (h : Metered log m.track)
    (hload : (∃ error, ∀ track, load track = .error error track) ∨
      ∃ course settings, ∀ track, load track = .ok () (track.replace course settings)) :
    Metered (log ++ (event (m.attempt load).2).toList) (m.attempt load).1.track := by
  rcases hload with ⟨error, hload⟩ | ⟨course, settings, hload⟩
  · rw [attempt_of_error (hload _), hrefused, Option.toList_none, List.append_nil]
    exact h
  · rw [attempt_of_ok (hload _), hdone, Option.toList_some]
    exact h.replace course settings

/-- One request keeps the metrics in step with the log. -/
theorem metered_perform [Json.NumberText] (h : Metered log m.track) (request : Request) :
    Metered (log ++ (Event.of? request (m.perform request).2).toList)
      (m.perform request).1.track := by
  cases request with
  | load layout settings =>
      refine metered_attempt rfl (fun _ => rfl) h ?_
      obtain ⟨field, reset⟩ := settings
      rcases load_cases layout field with ⟨error, hload⟩ | ⟨course, hload⟩
      · exact Or.inl ⟨error, hload reset⟩
      · exact Or.inr ⟨course, _, hload reset⟩
  | loadText text =>
      refine metered_attempt rfl (fun _ => rfl) h ?_
      rcases loadText_cases text with hload | ⟨bundle, course, -, hload⟩
      · exact Or.inl hload
      · exact Or.inr ⟨course, _, hload⟩
  | query name query millis =>
      rw [perform_query]
      exact h.answerOn m.counters (m.racers name) query millis
  | setMetrics on => exact h.setMetrics on
  | setReset on =>
      change Metered (log ++ []) _
      rw [List.append_nil]
      exact ⟨h.on_eq, h.off, h.on⟩
  | _ =>
      change Metered (log ++ []) _
      rwa [List.append_nil]

end Meeting

/-! ## Threads -/

namespace Thread

variable [Json.NumberText]

/-- What a request on some track adds to the log of one track. -/
def noted (thread : Thread) (name : String) : String × Request → List Event
  | (other, request) =>
    if other = name then (Event.of? request (thread.perform other request).2).toList else []

/-- The log of a track over a run. -/
def log (thread : Thread) (name : String) : List (String × Request) → List Event
  | [] => []
  | (other, request) :: requests =>
    thread.noted name (other, request) ++
      (thread.perform other request).1.log name requests

variable {log : List Event} {thread : Thread} {name : String}

/-- One request keeps the metrics of every track in step with its log, whichever track it is for. -/
theorem metered_perform (h : Metered log (thread.tracks name)) (other : String)
    (request : Request) :
    Metered (log ++ thread.noted name (other, request))
      ((thread.perform other request).1.tracks name) := by
  have htrack : (thread.perform other request).1.tracks name =
      if name = other then ((thread.meeting other).perform request).1.track
      else thread.tracks name := rfl
  rw [noted, htrack]
  by_cases hname : other = name
  · subst hname
    rw [if_pos rfl, if_pos rfl]
    exact Meeting.metered_perform (m := thread.meeting other) h request
  · rw [if_neg hname, if_neg (Ne.symm hname), List.append_nil]
    exact h

theorem metered_run (log : List Event) {requests : List (String × Request)}
    (h : Metered log (thread.tracks name)) :
    Metered (log ++ thread.log name requests) ((thread.run requests).1.tracks name) := by
  -- The log grows at its end while the requests are taken from the front.
  induction requests generalizing thread log with
  | nil => rwa [Thread.log, List.append_nil]
  | cons request requests ih =>
      obtain ⟨other, request⟩ := request
      have hrun : (thread.run ((other, request) :: requests)).1 =
          ((thread.perform other request).1.run requests).1 := rfl
      rw [Thread.log, ← List.append_assoc, hrun]
      exact ih _ (metered_perform h other request)

/-- Whatever the tracks of a thread are asked in turn, the metrics of each are told by its own
log. They are all zero while metrics are off. While they are on, queries are numbered from the
last switch from off to on; all else describes the last of these queries alone, and is zero if
there is none or a course has been loaded after it. -/
theorem metrics_tell_last_query (requests : List (String × Request)) (name : String) :
    Metered (start.log name requests) ((start.run requests).1.tracks name) :=
  metered_run [] metered_empty

end Thread

end Track

end Raceway
