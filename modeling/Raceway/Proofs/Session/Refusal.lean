import Raceway.Decimal.Nearest
import Raceway.Proofs.Action
import Raceway.Session.Run
/-!
# Refused requests

Every operation of a session looks at its arguments first and changes nothing before the last
check has passed.  A refused request therefore leaves no trace, and a run is the same without its
refused requests.
-/

namespace Raceway

open Raceway.Action

theorem Track.safe_load (layout : Layout Float) (settings : Settings Float) :
    Safe (Track.load layout settings) :=
  (safe_check _).bind_total fun _ => total_modify _

theorem Track.safe_loadText [Json.NumberText] (text : List Char) : Safe (Track.loadText text) :=
  (safe_check _).bind (reads_check _) fun _ => Track.safe_load _ _

namespace Session

theorem safe_onTrack {β : Type} {action : Action Track β} (h : Safe action) :
    Safe (onTrack action) :=
  h.focus fun _ => rfl

theorem safe_load (inner outer checkpoints : List Float) (field : Playfield Float) :
    Safe (load inner outer checkpoints field) := by
  refine (safe_check _).bind (reads_check _) fun layout => ?_
  refine total_get.safe.bind reads_get fun session => ?_
  exact (safe_onTrack (Track.safe_load _ _)).bind_total fun _ => total_modify _

theorem safe_loadText [Json.NumberText] (text : List Char) : Safe (loadText text) :=
  (safe_onTrack (Track.safe_loadText text)).bind_total fun _ => total_modify _

/-- Whether a reply is the error of a refused request. -/
def Reply.isRefused : Reply → Bool
  | .refused _ => true
  | _ => false

namespace Meeting

theorem safe_onSession {action : Action Session Unit} (h : Safe action) :
    Safe (onSession action) := by
  refine (h.focus fun _ => rfl).bind_total fun _ => ?_
  exact total_get.bind fun _ => total_pure _

theorem total_answerOwn (query : Query) (millis : Float) : Total (answerOwn query millis) :=
  total_get.bind fun _ => (total_set _).bind fun _ => total_pure _

theorem total_answerOther (racer : String) (query : Query) (millis : Float) :
    Total (answerOther racer query millis) :=
  total_get.bind fun _ => (total_set _).bind fun _ => total_pure _

theorem total_resetOther (racer : String) : Total (resetOther racer) :=
  (total_modify _).bind fun _ => total_pure _

theorem total_read (reply : Meeting → Reply) : Total (read reply) :=
  total_get.bind fun _ => total_pure _

theorem returns_onSession (action : Action Session Unit) :
    Returns (onSession action) (Reply.isRefused · = false) :=
  .bind fun _ => .bind fun _ => returns_pure rfl

section

variable [Json.NumberText]

theorem safe_perform? (request : Request) : Safe (perform? request) := by
  cases request with
  | load inner outer checkpoints field => exact safe_onSession (safe_load _ _ _ _)
  | loadText text => exact safe_onSession (safe_loadText text)
  | queryOwn rays position hitbox millis =>
      exact (safe_check _).bind_total fun query => total_answerOwn query millis
  | queryOther racer rays position hitbox millis =>
      exact (safe_check _).bind_total fun query => total_answerOther racer query millis
  | resetOwn => exact safe_onSession (total_modify _).safe
  | resetOther racer => exact (total_resetOther racer).safe
  | setReset on => exact safe_onSession (safe_onTrack (total_modify _).safe)
  | setMetrics on => exact safe_onSession (safe_onTrack (total_modify _).safe)
  | _ => exact (total_read _).safe

theorem returns_perform? (request : Request) :
    Returns (perform? request) (Reply.isRefused · = false) := by
  cases request with
  | queryOwn => exact .bind fun _ => .bind fun _ => .bind fun _ => returns_pure rfl
  | queryOther => exact .bind fun _ => .bind fun _ => .bind fun _ => returns_pure rfl
  | resetOther => exact .bind fun _ => returns_pure rfl
  | readStatus => exact .bind fun _ => returns_pure rfl
  | readMetrics => exact .bind fun _ => returns_pure rfl
  | readTileWalls => exact .bind fun _ => returns_pure rfl
  | readSummary => exact .bind fun _ => returns_pure rfl
  | _ => exact returns_onSession _

variable {m : Meeting} {request : Request}

theorem perform_of_isRefused (h : (m.perform request).2.isRefused = true) :
    (m.perform request).1 = m := by
  unfold perform at h ⊢
  cases hrun : perform? request m with
  | ok reply m' =>
      rw [hrun] at h
      exact absurd h (Bool.eq_false_iff.mp (returns_perform? request m reply m' hrun))
  | error error m' => exact safe_perform? request m error m' hrun

/-! ## Runs without refused requests -/

/-- The requests of a run that are not refused, each with its reply. -/
def granted (m : Meeting) (requests : List Request) : List (Request × Reply) :=
  (requests.zip (m.run requests).2).filter fun exchange => !exchange.2.isRefused

theorem run_cons (m : Meeting) (request : Request) (requests : List Request) :
    m.run (request :: requests) =
      (((m.perform request).1.run requests).1,
        (m.perform request).2 :: ((m.perform request).1.run requests).2) := rfl

theorem granted_cons_of_isRefused (h : (m.perform request).2.isRefused = true)
    (requests : List Request) : m.granted (request :: requests) = m.granted requests := by
  rw [granted, run_cons, List.zip_cons_cons, List.filter_cons_of_neg (by simp [h]),
    perform_of_isRefused h, granted]

theorem granted_cons_of_not_isRefused (h : (m.perform request).2.isRefused = false)
    (requests : List Request) :
    m.granted (request :: requests) =
      (request, (m.perform request).2) :: (m.perform request).1.granted requests := by
  rw [granted, run_cons, List.zip_cons_cons, List.filter_cons_of_pos (by simp [h]), granted]

/-- The requests that are granted make a run of their own, with the same replies and the same
end. -/
theorem run_granted (m : Meeting) (requests : List Request) :
    m.run ((m.granted requests).map Prod.fst) =
      ((m.run requests).1, (m.granted requests).map Prod.snd) := by
  induction requests generalizing m with
  | nil => rfl
  | cons request requests ih =>
      cases h : (m.perform request).2.isRefused with
      | true =>
          rw [granted_cons_of_isRefused h, ih, run_cons, perform_of_isRefused h]
      | false =>
          rw [granted_cons_of_not_isRefused h, List.map_cons, List.map_cons, run_cons, run_cons, ih]

/-- A request that is refused changes nothing: neither the track and its metrics, nor the racer of
the session, nor any racer that others keep.  Hence the refused requests of a run can be left out:
all others are answered as before, and the end is the same. -/
theorem refused_leaves_no_trace (m : Meeting) :
    (∀ request error, (m.perform request).2 = .refused error → (m.perform request).1 = m) ∧
      ∀ requests, m.run ((m.granted requests).map Prod.fst) =
        ((m.run requests).1, (m.granted requests).map Prod.snd) := by
  refine ⟨fun request error h => ?_, m.run_granted⟩
  apply perform_of_isRefused
  rw [h]
  rfl

end

attribute [local instance] Json.NumberText.nearest

/-- Two corners of a square for each wall. -/
def squareLoad : Request :=
  .load [0, 0, 8, 0] [0, 4, 8, 4] [2, 0, 2, 4] ⟨0, 0, 10, 10, 5⟩

/-- One corner is too little for a wall. -/
def cornerLoad : Request :=
  .load [1, 1] [0, 4, 8, 4] [] ⟨0, 0, 10, 10, 5⟩

/-- A session after the square has been loaded. -/
def square : Meeting := (empty.perform squareLoad).1

theorem refused_leaves_no_trace_corner :
    square.session.track.loaded = true ∧
      (square.perform cornerLoad).2 = .refused (.tooFewPoints .inner 1) ∧
      (square.perform cornerLoad).1 = square ∧
      empty.granted [squareLoad, cornerLoad] = [(squareLoad, .status square.session.status)] ∧
      empty.run [squareLoad] =
        ((empty.run [squareLoad, cornerLoad]).1, [.status square.session.status]) := by
  have hrefused : (square.perform cornerLoad).2 = .refused (.tooFewPoints .inner 1) := by rfl
  have hgranted : empty.granted [squareLoad, cornerLoad] =
      [(squareLoad, .status square.session.status)] := by rfl
  have hrun := (refused_leaves_no_trace empty).2 [squareLoad, cornerLoad]
  rw [hgranted] at hrun
  exact ⟨by rfl, hrefused, (refused_leaves_no_trace square).1 _ _ hrefused, hgranted, hrun⟩

end Meeting

end Session

end Raceway
