import Raceway.Decimal.Nearest
import Raceway.Proofs.Track.Laps
import Raceway.Proofs.Track.Operations
import Raceway.Track.Run
/-!
# Racers in a run

Whatever else happens on a track, only its own queries move a racer on.  As long as the course
stays the same, the counters of the racer are those of the queries in its history.
-/

namespace Raceway.Track

/-- Whether a request leaves the course alone, and a racer to its own queries. -/
def Request.spares (racer : String) : Request → Bool
  | .load _ _ | .loadText _ => false
  | .setProgress name _ => name != racer
  | _ => true

theorem answer_snd (track : Track) (p : Progress) (query : Query) :
    (track.answer p query).2 = query.run track.course track.settings.resetOnCollision p := by
  rw [answer]
  split_ifs <;> rfl

theorem answer_checkpointHit_iff {track : Track} {p : Progress}
    (hcursor : p.cursor.toNat < track.course.gates.length) (query : Query) :
    (track.answer p query).2.outcome.checkpointHit = true ↔
      ∃ gate, track.course.gates[if (track.answer p query).2.outcome.playerHit &&
          track.settings.resetOnCollision then 0 else p.cursor.toNat]? = some gate ∧
        ∃ edge ∈ query.hitbox.edges, edge.intersects gate = true := by
  rw [answer_snd, query.run_checkpointHit_iff _ hcursor, Query.beforeGate,
    Progress.contacted_cursor]
  split_ifs <;> rfl

namespace Meeting

section

variable [Json.NumberText]

/-- What a request adds to the log of a racer: one entry if it is a query of the racer. -/
def noted (m : Meeting) (racer : String) (request : Request) : List Entry :=
  match request, (m.perform request).2 with
  | .query name _ _, .answered step =>
    if name = racer then [⟨m.track.settings.resetOnCollision, step.outcome⟩] else []
  | _, _ => []

/-- The log of a racer over a run. -/
def history (m : Meeting) (racer : String) : List Request → List Entry
  | [] => []
  | request :: requests =>
    m.noted racer request ++ (m.perform request).1.history racer requests

variable {m : Meeting} {racer : String}

theorem perform_course {request : Request} (h : request.spares racer = true) :
    (m.perform request).1.track.course = m.track.course := by
  cases request with
  | load => cases h
  | loadText => cases h
  | query name query millis => exact answerOn_course _ _ _ query millis
  | _ => rfl

/-- A request that spares a racer is a query of the racer, or nothing to it. -/
theorem perform_cases {request : Request} (h : request.spares racer = true) :
    (m.noted racer request = [] ∧ (m.perform request).1.racers racer = m.racers racer) ∨
      ∃ query : Query,
        m.noted racer request = [⟨m.track.settings.resetOnCollision,
          (query.run m.track.course m.track.settings.resetOnCollision
            (m.racers racer)).outcome⟩] ∧
        (m.perform request).1.racers racer =
          (query.run m.track.course m.track.settings.resetOnCollision
            (m.racers racer)).progress := by
  cases request with
  | load => cases h
  | loadText => cases h
  | query name query millis =>
      have hnoted : m.noted racer (.query name query millis) = if name = racer then
          [⟨m.track.settings.resetOnCollision,
            (m.track.answer (m.racers name) query).2.outcome⟩] else [] := rfl
      have hracer : (m.perform (.query name query millis)).1.racers racer = if racer = name then
          (m.track.answer (m.racers name) query).2.progress else m.racers racer := rfl
      by_cases hname : name = racer
      · refine Or.inr ⟨query, ?_, ?_⟩
        · rw [hnoted, if_pos hname, answer_snd, hname]
        · rw [hracer, if_pos hname.symm, answer_snd, hname]
      · refine Or.inl ⟨?_, ?_⟩
        · rw [hnoted, if_neg hname]
        · rw [hracer, if_neg (Ne.symm hname)]
  | setProgress name p =>
      have hname : racer ≠ name := (bne_iff_ne.mp h).symm
      exact Or.inl ⟨rfl, if_neg hname⟩
  | _ => exact Or.inl ⟨rfl, rfl⟩

theorem run_cons (m : Meeting) (request : Request) (requests : List Request) :
    (m.run (request :: requests)).1 = ((m.perform request).1.run requests).1 := rfl

theorem run_course {requests : List Request}
    (h : ∀ request ∈ requests, request.spares racer = true) :
    (m.run requests).1.track.course = m.track.course := by
  induction requests generalizing m with
  | nil => rfl
  | cons request requests ih =>
      rw [run_cons, ih fun r hr => h r (List.mem_cons_of_mem request hr)]
      exact perform_course (h request List.mem_cons_self)

theorem run_accounts {requests : List Request} (log : List Entry)
    (hgates : 0 < m.track.course.gates.length)
    (hspares : ∀ request ∈ requests, request.spares racer = true)
    (hlength : (log ++ m.history racer requests).length < 2 ^ 32)
    (h : Progress.Accounts m.track.course.gates.length log (m.racers racer)) :
    Progress.Accounts m.track.course.gates.length (log ++ m.history racer requests)
      ((m.run requests).1.racers racer) := by
  -- The log grows at its end while the requests are taken from the front.
  induction requests generalizing m log with
  | nil => rwa [history, List.append_nil]
  | cons request requests ih =>
      have hrequest := hspares request List.mem_cons_self
      have hcourse := perform_course (m := m) hrequest
      rw [history, ← List.append_assoc] at hlength ⊢
      rw [run_cons, ← hcourse]
      refine ih _ (by rwa [hcourse]) (fun r hr => hspares r (List.mem_cons_of_mem request hr))
        hlength ?_
      rw [hcourse]
      rcases perform_cases hrequest with ⟨hnoted, hracer⟩ | ⟨query, hnoted, hracer⟩
      · rwa [hnoted, hracer, List.append_nil]
      · rw [hnoted, hracer]
        apply h.run hgates
        rw [hnoted, List.length_append, List.length_append] at hlength
        exact Nat.lt_of_le_of_lt (Nat.le_add_right _ _) hlength

/-- Lap accounting.  On a course with gates a racer that started at zero has crossed as many gates
and touched walls as often as its history says.  Its cursor has gone round the gates since the last
collision that reset, and its laps are the rounds of all stretches between such collisions.  The
next query crosses a gate exactly when its hitbox meets the one at the cursor. -/
theorem run_counts_laps {requests : List Request} (hgates : 0 < m.track.course.gates.length)
    (hstart : m.racers racer = Progress.start)
    (hspares : ∀ request ∈ requests, request.spares racer = true)
    (hlength : (m.history racer requests).length < 2 ^ 32) :
    Progress.Accounts m.track.course.gates.length (m.history racer requests)
        ((m.run requests).1.racers racer) ∧
      (∀ query : Query,
        let track := (m.run requests).1.track
        let p := (m.run requests).1.racers racer
        let outcome := (track.answer p query).2.outcome
        outcome.checkpointHit = true ↔
          ∃ gate, m.track.course.gates[if outcome.playerHit && track.settings.resetOnCollision
              then 0 else p.cursor.toNat]? = some gate ∧
            ∃ edge ∈ query.hitbox.edges, edge.intersects gate = true) ∧
      ((∀ entry ∈ m.history racer requests, entry.reset = false) →
        ((m.run requests).1.racers racer).crossings.toNat =
          m.track.course.gates.length * ((m.run requests).1.racers racer).laps.toNat +
            ((m.run requests).1.racers racer).cursor.toNat) := by
  have haccounts := run_accounts [] hgates hspares hlength
    (hstart ▸ Progress.accounts_start _)
  refine ⟨haccounts, ?_, fun hoff => ?_⟩
  · intro query track p outcome
    have hcursor := haccounts.cursor_lt hgates
    rw [← run_course hspares] at hcursor ⊢
    exact answer_checkpointHit_iff hcursor query
  · exact haccounts.crossings_eq_of_forall fun entry hentry => by
      rw [Entry.restarts, hoff entry hentry, Bool.and_false]

end

attribute [local instance] Json.NumberText.nearest

/-- Two gates before a wall, and nobody on the way yet. -/
def twoGates : Meeting where
  track := { Track.empty with
    course :=
      { grid := Grid.ofDimensions ⟨0, 0, 10, 10, 10⟩ ⟨2, 2⟩ [⟨⟨8, 0⟩, ⟨8, 10⟩⟩]
        gates := [⟨⟨2, 0⟩, ⟨2, 10⟩⟩, ⟨⟨4, 0⟩, ⟨4, 10⟩⟩] } }
  racers := Racers.start

/-- Across the first gate, then in touch with the wall and both gates, then across the second. -/
def twoGatesRun : List Request :=
  [.query "blue" ⟨[], ⟨2, 5⟩, Hitbox.around ⟨2, 5⟩ 1 1⟩ 0, .setReset true,
    .query "red" ⟨[], ⟨2, 5⟩, Hitbox.around ⟨2, 5⟩ 1 1⟩ 0,
    .query "blue" ⟨[], ⟨5, 5⟩, Hitbox.around ⟨5, 5⟩ 4 1⟩ 0,
    .query "blue" ⟨[], ⟨4, 5⟩, Hitbox.around ⟨4, 5⟩ 1 1⟩ 0]

theorem run_counts_laps_two_gates :
    0 < twoGates.track.course.gates.length ∧ twoGates.racers "blue" = Progress.start ∧
      (∀ request ∈ twoGatesRun, request.spares "blue" = true) ∧
      (twoGates.history "blue" twoGatesRun).length < 2 ^ 32 ∧
      (twoGates.run twoGatesRun).1.racers "blue" = ⟨0, 1, 3, 1⟩ ∧
      Progress.Accounts 2 (twoGates.history "blue" twoGatesRun) ⟨0, 1, 3, 1⟩ := by
  have hgates : 0 < twoGates.track.course.gates.length := by decide
  have hspares : ∀ request ∈ twoGatesRun, request.spares "blue" = true := by
    rw [← List.all_eq_true]
    rfl
  have hlength : (twoGates.history "blue" twoGatesRun).length = 3 := rfl
  have hlimit : (twoGates.history "blue" twoGatesRun).length < 2 ^ 32 := by
    rw [hlength]
    decide
  have hend : (twoGates.run twoGatesRun).1.racers "blue" = ⟨0, 1, 3, 1⟩ := by decide +kernel
  have haccounts := (run_counts_laps hgates rfl hspares hlimit).1
  rw [hend] at haccounts
  exact ⟨hgates, rfl, hspares, hlimit, hend, haccounts⟩

end Meeting

end Raceway.Track
