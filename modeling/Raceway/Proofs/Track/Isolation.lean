import Raceway.Proofs.Track.History
/-!
# Racers do not disturb each other

A racer is concerned by loads, by the rule for collisions and by what is asked about it by name.
Nothing else on its track can be told from the answers that it gets or from its progress: not the
queries of other racers, not the metrics, and not what is read from the track.
-/

namespace Raceway.Track

/-- Whether a request concerns a racer. -/
def Request.concerns (racer : String) : Request → Bool
  | .load .. | .loadText _ | .setReset _ => true
  | .query name .. | .setProgress name _ => name == racer
  | _ => false

namespace Meeting

/-- What a racer sees of a run: the replies to the requests that concern it, each with its
progress after the request. -/
def seen [Json.NumberText] (m : Meeting) (racer : String) : List Request → List (Reply × Progress)
  | [] => []
  | request :: requests =>
    let (next, reply) := m.perform request
    if request.concerns racer then (reply, next.racers racer) :: next.seen racer requests
    else next.seen racer requests

/-- Two meetings that are the same to a racer. They may differ in the metrics, in what their
threads have counted and in all other racers. -/
structure SameFor (racer : String) (m m' : Meeting) : Prop where
  course_eq : m.track.course = m'.track.course
  settings_eq : m.track.settings = m'.track.settings
  racer_eq : m.racers racer = m'.racers racer

variable {racer : String} {m m' : Meeting} {request : Request}

theorem SameFor.refl (m : Meeting) : SameFor racer m m :=
  ⟨rfl, rfl, rfl⟩

theorem SameFor.symm (h : SameFor racer m m') : SameFor racer m' m :=
  ⟨h.course_eq.symm, h.settings_eq.symm, h.racer_eq.symm⟩

theorem SameFor.trans {m'' : Meeting} (h : SameFor racer m m') (h' : SameFor racer m' m'') :
    SameFor racer m m'' :=
  ⟨h.course_eq.trans h'.course_eq, h.settings_eq.trans h'.settings_eq,
    h.racer_eq.trans h'.racer_eq⟩

/-! ## One request -/

theorem attempt_of_error {load : Action Track Unit} {error : TrackError Float} {track : Track}
    (h : load m.track = .error error track) :
    m.attempt load = ({ m with track := track }, .refused error) := by
  rw [attempt, h]

theorem attempt_of_ok {load : Action Track Unit} {track : Track}
    (h : load m.track = .ok () track) : m.attempt load = ({ m with track := track }, .done) := by
  rw [attempt, h]

theorem SameFor.attempt {load : Action Track Unit} (h : SameFor racer m m')
    (hload : (∃ error, ∀ track, load track = .error error track) ∨
      ∃ course settings, ∀ track, load track = .ok () (track.replace course settings)) :
    (m.attempt load).2 = (m'.attempt load).2 ∧
      SameFor racer (m.attempt load).1 (m'.attempt load).1 := by
  rcases hload with ⟨error, hload⟩ | ⟨course, settings, hload⟩
  · rw [attempt_of_error (hload m.track), attempt_of_error (hload m'.track)]
    exact ⟨rfl, h⟩
  · rw [attempt_of_ok (hload m.track), attempt_of_ok (hload m'.track)]
    exact ⟨rfl, rfl, rfl, h.racer_eq⟩

section

variable [Json.NumberText]

theorem perform_query (m : Meeting) (name : String) (query : Query) (millis : Float) :
    m.perform (.query name query millis) =
      (⟨(m.track.answerOn m.counters (m.racers name) query millis).1,
          m.racers.update name (query.run m.track.course m.track.settings.resetOnCollision
            (m.racers name)).progress,
          (m.track.answerOn m.counters (m.racers name) query millis).2.1⟩,
        .answered (query.run m.track.course m.track.settings.resetOnCollision
          (m.racers name))) := by
  rw [← answerOn_snd m.track m.counters (m.racers name) query millis]
  rfl

theorem perform_sameFor (h : request.concerns racer = false) :
    SameFor racer (m.perform request).1 m := by
  cases request with
  | load => cases h
  | loadText => cases h
  | setReset => cases h
  | query name query millis =>
      have hname : racer ≠ name := fun heq => by simp [Request.concerns, heq] at h
      rw [perform_query, answerOn_fst]
      exact ⟨rfl, rfl, if_neg hname⟩
  | setProgress name p =>
      have hname : racer ≠ name := fun heq => by simp [Request.concerns, heq] at h
      exact ⟨rfl, rfl, if_neg hname⟩
  | _ => exact ⟨rfl, rfl, rfl⟩

/-- What is the same to a racer stays the same through a request that concerns it, with the same
reply. -/
theorem SameFor.perform (h : SameFor racer m m') (hconcerns : request.concerns racer = true) :
    (m.perform request).2 = (m'.perform request).2 ∧
      SameFor racer (m.perform request).1 (m'.perform request).1 := by
  cases request with
  | load layout settings =>
      rcases load_cases layout settings.toPlayfield with ⟨error, hload⟩ | ⟨course, hload⟩
      · exact h.attempt (Or.inl ⟨error, hload settings.resetOnCollision⟩)
      · exact h.attempt (Or.inr ⟨course, settings, hload settings.resetOnCollision⟩)
  | loadText text =>
      rcases loadText_cases text with ⟨error, hload⟩ | ⟨bundle, course, -, hload⟩
      · exact h.attempt (Or.inl ⟨error, hload⟩)
      · exact h.attempt (Or.inr ⟨course, bundle.settings, hload⟩)
  | setReset on =>
      have hsettings : (m.track.setReset on).settings = (m'.track.setReset on).settings := by
        rw [setReset, setReset, h.settings_eq]
      exact ⟨congrArg Reply.settings hsettings, h.course_eq, hsettings, h.racer_eq⟩
  | query name query millis =>
      obtain rfl : name = racer := beq_iff_eq.mp hconcerns
      rw [perform_query, perform_query, h.course_eq, h.settings_eq, h.racer_eq, answerOn_fst,
        answerOn_fst m'.track]
      exact ⟨rfl, h.course_eq, h.settings_eq, (if_pos rfl).trans (if_pos rfl).symm⟩
  | setProgress name p =>
      obtain rfl : name = racer := beq_iff_eq.mp hconcerns
      exact ⟨rfl, h.course_eq, h.settings_eq, (if_pos rfl).trans (if_pos rfl).symm⟩
  | _ => cases hconcerns

/-! ## Runs -/

theorem seen_cons_of_concerns (h : request.concerns racer = true) (requests : List Request) :
    m.seen racer (request :: requests) =
      ((m.perform request).2, (m.perform request).1.racers racer) ::
        (m.perform request).1.seen racer requests :=
  if_pos h

theorem seen_cons_of_not_concerns (h : request.concerns racer = false) (requests : List Request) :
    m.seen racer (request :: requests) = (m.perform request).1.seen racer requests :=
  if_neg (Bool.eq_false_iff.mp h)

theorem SameFor.seen (h : SameFor racer m m') (requests : List Request) :
    m.seen racer (requests.filter (Request.concerns racer)) = m'.seen racer requests := by
  -- The two meetings stay the same to the racer, not equal: only one goes through every request.
  induction requests generalizing m m' with
  | nil => rfl
  | cons request requests ih =>
      cases hconcerns : request.concerns racer with
      | true =>
          obtain ⟨hreply, hsame⟩ := h.perform hconcerns
          rw [List.filter_cons_of_pos hconcerns, seen_cons_of_concerns hconcerns,
            seen_cons_of_concerns hconcerns, hreply, hsame.racer_eq, ih hsame]
      | false =>
          have hsame : SameFor racer (m'.perform request).1 m' := perform_sameFor hconcerns
          rw [List.filter_cons_of_neg (Bool.eq_false_iff.mp hconcerns),
            seen_cons_of_not_concerns hconcerns]
          exact ih (h.trans hsame.symm)

/-- Racers and metrics do not interfere.  A racer gets the same answers, and makes the same
progress, when all requests that do not concern it are left out of a run: none of them moves it. -/
theorem seen_filter_concerns (m : Meeting) (racer : String) :
    (∀ requests, m.seen racer (requests.filter (Request.concerns racer)) =
        m.seen racer requests) ∧
      ∀ request, request.concerns racer = false →
        (m.perform request).1.racers racer = m.racers racer :=
  ⟨(SameFor.refl m).seen, fun _ h => (perform_sameFor h).racer_eq⟩

end

attribute [local instance] Json.NumberText.nearest

/-- What blue sees of the run on two gates does not depend on red. -/
theorem seen_filter_concerns_two_gates :
    twoGatesRun.map (Request.concerns "blue") = [true, true, false, true, true] ∧
      (twoGates.perform (.setMetrics true)).1.racers "blue" = Progress.start ∧
      (twoGates.seen "blue" (twoGatesRun.filter (Request.concerns "blue"))).map Prod.snd =
        [⟨1, 0, 1, 0⟩, ⟨1, 0, 1, 0⟩, ⟨1, 0, 2, 1⟩, ⟨0, 1, 3, 1⟩] := by
  have hseen : (twoGates.seen "blue" twoGatesRun).map Prod.snd =
      [⟨1, 0, 1, 0⟩, ⟨1, 0, 1, 0⟩, ⟨1, 0, 2, 1⟩, ⟨0, 1, 3, 1⟩] := by decide +kernel
  refine ⟨by rfl, (seen_filter_concerns twoGates "blue").2 (.setMetrics true) rfl, ?_⟩
  rw [(seen_filter_concerns twoGates "blue").1, hseen]

end Meeting

end Raceway.Track
