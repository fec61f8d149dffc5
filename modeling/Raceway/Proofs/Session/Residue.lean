import Raceway.Proofs.Session.Refusal
import Raceway.Proofs.Track.Operations
/-!
# What is left of a history

After any history of a session its track is what the last load makes of an empty one, whatever was
loaded before and however often loading failed.  Only the rule for collisions follows other
requests, and the racer of the session those that were made since it last started anew.
-/

namespace Raceway

/-- The progress after queries on one course, each under its rule for collisions. -/
def Progress.replay (p : Progress) (course : Course Float) (queries : List (Bool × Query)) :
    Progress :=
  queries.foldl (fun p (reset, query) => (query.run course reset p).progress) p

theorem Progress.replay_append (p : Progress) (course : Course Float)
    (queries more : List (Bool × Query)) :
    p.replay course (queries ++ more) = (p.replay course queries).replay course more :=
  List.foldl_append

namespace Session

namespace Request

/-- Whether a request loads a course. -/
def loads : Request → Bool
  | .load .. | .loadText _ => true
  | _ => false

/-- Whether a request sends the session's own racer back to the start. -/
def restarts : Request → Bool
  | .load .. | .loadText _ | .resetOwn => true
  | _ => false

/-- What a request says about collisions. A load of flat lists says nothing. -/
def reset? [Json.NumberText] : Request → Option Bool
  | .setReset on => some on
  | .loadText text =>
    (Bundle.ofText text).toOption.map fun bundle => bundle.settings.resetOnCollision
  | _ => none

/-- The query that a request makes for the session's own racer. -/
def ownQuery? : Request → Option Query
  | .queryOwn rays position hitbox _ => (query rays position hitbox).toOption
  | _ => none

theorem restarts_of_loads {request : Request} (h : request.loads = true) :
    request.restarts = true := by
  cases request with
  | load => rfl
  | loadText => rfl
  | _ => cases h

end Request

/-! ## Loads -/

theorem onTrack_of_ok {β : Type} {action : Action Track β} {session : Session} {b : β}
    {track : Track} (h : action session.track = .ok b track) :
    onTrack action session = .ok b { session with track := track } := by
  simp only [onTrack, Action.focus, h]

theorem onTrack_of_error {β : Type} {action : Action Track β} {session : Session}
    {error : TrackError Float} {track : Track} (h : action session.track = .error error track) :
    onTrack action session = .error error { session with track := track } := by
  simp only [onTrack, Action.focus, h]

/-- The course that flat lists are laid as. -/
def layFlat (inner outer checkpoints : List Float) (field : Playfield Float) :
    Except (TrackError Float) (Course Float) := do
  let layout ← Layout.ofFlat inner outer checkpoints
  Course.lay layout field

theorem load_eq (inner outer checkpoints : List Float) (field : Playfield Float)
    (session : Session) :
    load inner outer checkpoints field session =
      match layFlat inner outer checkpoints field with
      | .error error => .error error session
      | .ok course => .ok () ⟨session.track.replace course
          ⟨field, session.track.settings.resetOnCollision⟩, Progress.start⟩ := by
  rw [layFlat]
  cases hlayout : Layout.ofFlat inner outer checkpoints with
  | error error =>
      rw [load, hlayout]
      rfl
  | ok layout =>
      let settings : Settings Float := ⟨field, session.track.settings.resetOnCollision⟩
      have hload : load inner outer checkpoints field session =
          (onTrack (Track.load layout settings) >>= fun _ => modify resetOwn) session := by
        rw [load, hlayout]
        rfl
      have hlay : (Except.ok layout >>= fun layout => Course.lay layout field) =
          Course.lay layout settings.toPlayfield := rfl
      rw [hload, hlay]
      cases hcourse : Course.lay layout settings.toPlayfield with
      | error error =>
          rw [Action.bind_of_error (onTrack_of_error (Track.load_of_lay_error hcourse _))]
      | ok course =>
          rw [Action.bind_of_ok (onTrack_of_ok (Track.load_of_lay_ok hcourse _))]
          rfl

theorem load_cases (inner outer checkpoints : List Float) (field : Playfield Float) :
    (∃ error, ∀ session, load inner outer checkpoints field session = .error error session) ∨
      ∃ course, ∀ session : Session, load inner outer checkpoints field session =
        .ok () ⟨session.track.replace course ⟨field, session.track.settings.resetOnCollision⟩,
          Progress.start⟩ := by
  simp only [load_eq]
  cases layFlat inner outer checkpoints field with
  | error error => exact Or.inl ⟨error, fun _ => rfl⟩
  | ok course => exact Or.inr ⟨course, fun _ => rfl⟩

namespace Meeting

theorem onSession_of_ok {action : Action Session Unit} {m : Meeting} {session : Session}
    (h : action m.session = .ok () session) :
    onSession action m = .ok (.status session.status) { m with session := session } := by
  have hfocus : Action.focus Meeting.session (fun m session => { m with session := session })
      action m = .ok () { m with session := session } := by
    simp only [Action.focus, h]
  rw [onSession, Action.bind_of_ok hfocus]
  rfl

theorem onSession_of_error {action : Action Session Unit} {m : Meeting}
    {error : TrackError Float} {session : Session} (h : action m.session = .error error session) :
    onSession action m = .error error { m with session := session } := by
  have hfocus : Action.focus Meeting.session (fun m session => { m with session := session })
      action m = .error error { m with session := session } := by
    simp only [Action.focus, h]
  rw [onSession, Action.bind_of_error hfocus]

end Meeting

variable [Json.NumberText]

theorem loadText_cases (text : List Char) :
    (∃ error, ∀ session, loadText text session = .error error session) ∨
      ∃ bundle course, Bundle.ofText text = .ok bundle ∧
        ∀ session : Session, loadText text session =
          .ok () ⟨session.track.replace course bundle.settings, Progress.start⟩ := by
  rcases Track.loadText_cases text with ⟨error, h⟩ | ⟨bundle, course, hbundle, h⟩
  · refine Or.inl ⟨error, fun session => ?_⟩
    rw [loadText, Action.bind_of_error (onTrack_of_error (h session.track))]
  · refine Or.inr ⟨bundle, course, hbundle, fun session => ?_⟩
    rw [loadText, Action.bind_of_ok (onTrack_of_ok (h session.track))]
    rfl

/-! ## What a history says -/

/-- The track that the last load of a history makes of an empty one. -/
def lastTrack (history : List Request) : Track :=
  match (history.filter Request.loads).getLast? with
  | some request => (Meeting.empty.perform request).1.session.track
  | none => Track.empty

/-- The last word of a history about collisions, or the rule at its beginning. -/
def lastReset (reset : Bool) (history : List Request) : Bool :=
  (history.filterMap Request.reset?).getLast?.getD reset

/-- The queries of the session's own racer in a history, each with the rule for collisions in
force, given the rule at the beginning. -/
def ownQueries (reset : Bool) : List Request → List (Bool × Query)
  | [] => []
  | request :: requests =>
    (request.ownQuery?.map (Prod.mk reset)).toList ++
      ownQueries (request.reset?.getD reset) requests

/-- What a session is after a history of requests that were carried out. Its racer starts at the
last request that restarts it, if there is one, and goes on with the queries made since. -/
structure Residue (history : List Request) (session : Session) : Prop where
  course_eq : session.track.course = (lastTrack history).course
  loaded_eq : session.track.loaded = (lastTrack history).loaded
  field_eq : session.track.settings.toPlayfield = (lastTrack history).settings.toPlayfield
  reset_eq : session.track.settings.resetOnCollision = lastReset true history
  racer_eq : ∃ before since, history = before ++ since ∧
    (∀ request ∈ before.getLast?, request.restarts = true) ∧
    (∀ request ∈ since, request.restarts = false) ∧
    session.racer = Progress.start.replay (lastTrack history).course
      (ownQueries (lastReset true before) since)

theorem lastTrack_append_of_loads {request : Request} (h : request.loads = true)
    (history : List Request) :
    lastTrack (history ++ [request]) = (Meeting.empty.perform request).1.session.track := by
  simp [lastTrack, h]

theorem lastTrack_append_of_not_loads {request : Request} (h : request.loads = false)
    (history : List Request) : lastTrack (history ++ [request]) = lastTrack history := by
  simp [lastTrack, h]

@[simp] theorem lastReset_append (reset : Bool) (history more : List Request) :
    lastReset reset (history ++ more) = lastReset (lastReset reset history) more := by
  simp only [lastReset, List.filterMap_append, List.getLast?_append]
  cases (more.filterMap Request.reset?).getLast? <;> rfl

@[simp] theorem lastReset_singleton (reset : Bool) (request : Request) :
    lastReset reset [request] = request.reset?.getD reset := by
  cases h : request.reset? <;> simp [lastReset, h]

theorem ownQueries_append (reset : Bool) (history more : List Request) :
    ownQueries reset (history ++ more) =
      ownQueries reset history ++ ownQueries (lastReset reset history) more := by
  induction history generalizing reset with
  | nil => rfl
  | cons request requests ih =>
      rw [List.cons_append, ownQueries, ih, ownQueries, List.append_assoc, ← lastReset_singleton,
        ← lastReset_append, List.singleton_append]

theorem ownQueries_singleton (reset : Bool) (request : Request) :
    ownQueries reset [request] = (request.ownQuery?.map (Prod.mk reset)).toList :=
  List.append_nil _

section

variable {history : List Request} {session : Session} {request : Request}

theorem Residue.reset_append (h : Residue history session) (request : Request) :
    lastReset true (history ++ [request]) =
      request.reset?.getD session.track.settings.resetOnCollision := by
  simp [h.reset_eq]

theorem Residue.racer_append (h : Residue history session)
    (hrestarts : request.restarts = false) :
    ∃ before since, history ++ [request] = before ++ since ∧
      (∀ r ∈ before.getLast?, r.restarts = true) ∧ (∀ r ∈ since, r.restarts = false) ∧
      session.racer.replay session.track.course
          (ownQueries session.track.settings.resetOnCollision [request]) =
        Progress.start.replay (lastTrack history).course
          (ownQueries (lastReset true before) since) := by
  obtain ⟨before, since, hhistory, hbefore, hsince, hracer⟩ := h.racer_eq
  refine ⟨before, since ++ [request], ?_, hbefore, ?_, ?_⟩
  · rw [hhistory, List.append_assoc]
  · intro r hr
    rcases List.mem_append.mp hr with hr | hr
    · exact hsince r hr
    · rwa [List.mem_singleton.mp hr]
  · -- The new query goes by the rule that the requests since then have left.
    have hrule : lastReset (lastReset true before) since =
        session.track.settings.resetOnCollision := by
      rw [← lastReset_append, ← hhistory, h.reset_eq]
    rw [ownQueries_append, Progress.replay_append, ← hracer, hrule, ← h.course_eq]

end

/-! ## Requests that load -/

namespace Meeting

theorem perform_of_ok {m : Meeting} {request : Request} {reply : Reply} {m' : Meeting}
    (h : perform? request m = .ok reply m') : m.perform request = (m', reply) := by
  rw [perform, h]

theorem perform_of_error {m : Meeting} {request : Request} {error : TrackError Float}
    {m' : Meeting} (h : perform? request m = .error error m') :
    m.perform request = (m', .refused error) := by
  rw [perform, h]

section

variable {action : Action Session Unit} {m : Meeting} {request : Request} {session : Session}

theorem isRefused_of_onSession (hrequest : perform? request = onSession action)
    {error : TrackError Float} (h : action m.session = .error error session) :
    (m.perform request).2.isRefused = true := by
  have hm : perform? request m = .error error { m with session := session } := by
    rw [hrequest, onSession_of_error h]
  rw [perform_of_error hm]
  rfl

theorem session_of_onSession (hrequest : perform? request = onSession action)
    (h : action m.session = .ok () session) : (m.perform request).1.session = session := by
  have hm : perform? request m = .ok (.status session.status) { m with session := session } := by
    rw [hrequest, onSession_of_ok h]
  rw [perform_of_ok hm]

end

/-- A load is refused in every meeting, or it does the same to the session of any. -/
theorem perform_loads {request : Request} (h : request.loads = true) :
    (∀ m : Meeting, (m.perform request).2.isRefused = true) ∨
      ∃ course field, ∀ m : Meeting, (m.perform request).1.session =
        ⟨m.session.track.replace course
          ⟨field, request.reset?.getD m.session.track.settings.resetOnCollision⟩,
          Progress.start⟩ := by
  cases request with
  | load inner outer checkpoints field =>
      rcases load_cases inner outer checkpoints field with ⟨error, hload⟩ | ⟨course, hload⟩
      · exact Or.inl fun m => isRefused_of_onSession rfl (hload m.session)
      · exact Or.inr ⟨course, field, fun m => session_of_onSession rfl (hload m.session)⟩
  | loadText text =>
      rcases loadText_cases text with ⟨error, hload⟩ | ⟨bundle, course, hbundle, hload⟩
      · exact Or.inl fun m => isRefused_of_onSession rfl (hload m.session)
      · refine Or.inr ⟨course, bundle.settings.toPlayfield, fun m => ?_⟩
        rw [session_of_onSession rfl (hload m.session), Request.reset?, hbundle]
        rfl
  | _ => cases h

/-! ## All other requests -/

section

variable {rays : List Float} {position : Point Float} {hitbox : List Float} {query : Query}

theorem perform_queryOwn (h : Session.query rays position hitbox = .ok query) (millis : Float)
    (m : Meeting) :
    (m.perform (.queryOwn rays position hitbox millis)).1.session =
      ⟨(m.session.track.answerOn m.counters m.session.racer query millis).1,
        (m.session.track.answerOn m.counters m.session.racer query millis).2.2.progress⟩ := by
  have hm : perform? (.queryOwn rays position hitbox millis) m = answerOwn query millis m :=
    Action.bind_of_ok (by rw [h]; rfl)
  rw [perform, hm]
  rfl

theorem perform_queryOther (h : Session.query rays position hitbox = .ok query) (racer : String)
    (millis : Float) (m : Meeting) :
    (m.perform (.queryOther racer rays position hitbox millis)).1.session =
      ⟨(m.session.track.answerOn m.counters (m.racers racer) query millis).1,
        m.session.racer⟩ := by
  have hm : perform? (.queryOther racer rays position hitbox millis) m =
      answerOther racer query millis m :=
    Action.bind_of_ok (by rw [h]; rfl)
  rw [perform, hm]
  rfl

theorem perform_of_query_error {request : Request} {next : Query → Action Meeting Reply}
    {error : TrackError Float}
    (hrequest : perform? request = Action.check (Session.query rays position hitbox) >>= next)
    (h : Session.query rays position hitbox = .error error) (m : Meeting) :
    (m.perform request).1 = m := by
  have hm : perform? request m = .error error m := by
    rw [hrequest, Action.bind_of_error (by rw [h]; rfl)]
  rw [perform_of_error hm]

end

/-- Any other request leaves the course alone.  It may have a word about collisions, and it may
move the racer of the session. -/
theorem perform_of_not_loads (m : Meeting) {request : Request} (h : request.loads = false) :
    ∃ on metrics, (m.perform request).1.session =
      ⟨{ m.session.track with
          settings := ⟨m.session.track.settings.toPlayfield,
            request.reset?.getD m.session.track.settings.resetOnCollision⟩
          metricsOn := on
          metrics := metrics },
        if request.restarts then Progress.start
        else m.session.racer.replay m.session.track.course
          (ownQueries m.session.track.settings.resetOnCollision [request])⟩ := by
  cases request with
  | load => cases h
  | loadText => cases h
  | queryOwn rays position hitbox =>
      rw [ownQueries_singleton, Request.ownQuery?]
      cases hquery : query rays position hitbox with
      | error error =>
          rw [perform_of_query_error rfl hquery]
          exact ⟨m.session.track.metricsOn, m.session.track.metrics, rfl⟩
      | ok query =>
          rw [perform_queryOwn hquery, Track.answerOn_snd, Track.answerOn_fst]
          exact ⟨m.session.track.metricsOn, _, rfl⟩
  | queryOther racer rays position hitbox =>
      cases hquery : query rays position hitbox with
      | error error =>
          rw [perform_of_query_error rfl hquery]
          exact ⟨m.session.track.metricsOn, m.session.track.metrics, rfl⟩
      | ok query =>
          rw [perform_queryOther hquery, Track.answerOn_fst]
          exact ⟨m.session.track.metricsOn, _, rfl⟩
  | _ => exact ⟨_, _, rfl⟩

/-! ## Runs -/

section

variable {history : List Request} {m : Meeting} {request : Request}

theorem perform_residue_of_loads (hloads : request.loads = true)
    (hgranted : (m.perform request).2.isRefused = false) (h : Residue history m.session) :
    Residue (history ++ [request]) (m.perform request).1.session := by
  rcases perform_loads hloads with hrefused | ⟨course, field, hperform⟩
  · rw [hrefused] at hgranted
    cases hgranted
  · have htrack := lastTrack_append_of_loads hloads history
    rw [hperform] at htrack ⊢
    exact {
      course_eq := by rw [htrack]; rfl
      loaded_eq := by rw [htrack]; rfl
      field_eq := by rw [htrack]; rfl
      reset_eq := (h.reset_append request).symm
      racer_eq := ⟨history ++ [request], [], (List.append_nil _).symm,
        by simpa using Request.restarts_of_loads hloads, by simp, rfl⟩ }

theorem perform_residue_of_not_loads (hloads : request.loads = false)
    (h : Residue history m.session) :
    Residue (history ++ [request]) (m.perform request).1.session := by
  obtain ⟨on, metrics, hperform⟩ := m.perform_of_not_loads hloads
  have htrack := lastTrack_append_of_not_loads hloads history
  rw [hperform]
  refine ⟨h.course_eq.trans (by rw [htrack]), h.loaded_eq.trans (by rw [htrack]),
    h.field_eq.trans (by rw [htrack]), (h.reset_append request).symm, ?_⟩
  cases hrestarts : request.restarts with
  | true =>
      exact ⟨history ++ [request], [], (List.append_nil _).symm, by simpa using hrestarts,
        by simp, rfl⟩
  | false =>
      rw [htrack]
      exact h.racer_append hrestarts

theorem perform_residue (hgranted : (m.perform request).2.isRefused = false)
    (h : Residue history m.session) :
    Residue (history ++ [request]) (m.perform request).1.session := by
  cases hloads : request.loads with
  | true => exact perform_residue_of_loads hloads hgranted h
  | false => exact perform_residue_of_not_loads hloads h

end

theorem run_residue {history : List Request} {m : Meeting} (h : Residue history m.session)
    (requests : List Request) :
    Residue (history ++ (m.granted requests).map Prod.fst) (m.run requests).1.session := by
  induction requests generalizing history m with
  | nil =>
      have hgranted : m.granted [] = [] := rfl
      rw [hgranted, List.map_nil, List.append_nil]
      exact h
  | cons request requests ih =>
      rw [run_cons]
      cases hrequest : (m.perform request).2.isRefused with
      | true =>
          rw [granted_cons_of_isRefused hrequest, perform_of_isRefused hrequest]
          exact ih h
      | false =>
          have hnext := ih (perform_residue hrequest h)
          rw [List.append_assoc, List.singleton_append] at hnext
          rwa [granted_cons_of_not_isRefused hrequest, List.map_cons]

end Meeting

theorem residue_empty : Residue [] Session.empty :=
  ⟨rfl, rfl, rfl, rfl, [], [], rfl, nofun, nofun, rfl⟩

/-- Whatever a session has been through, its course is that of the last load that was carried out,
on a track that was empty before.  The rule for collisions is the last word of a request on it, and
the session's own racer has gone from the start through its queries since the last request that
sent it back, each under the rule of its time. -/
theorem Meeting.run_leaves_residue (racers : Racers) (counters : Counters)
    (requests : List Request) :
    let m : Meeting := ⟨Session.empty, racers, counters⟩
    Residue ((m.granted requests).map Prod.fst) (m.run requests).1.session := by
  intro m
  have hempty : Residue [] m.session := residue_empty
  exact run_residue hempty requests

end Session

end Raceway
