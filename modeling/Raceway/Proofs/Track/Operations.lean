import Raceway.Track.Basic
/-!
# Operations of a track

A load puts a course in place that depends on the layout and the playfield alone, or it is refused
on every track.  A query is answered from the course and the rule for collisions alone.  All that
it leaves on the track are its metrics, and these never reach the answer of another query.
-/

namespace Raceway.Track

section

variable {layout : Layout Float} {settings : Settings Float}

theorem load_of_lay_ok {course : Course Float}
    (h : Course.lay layout settings.toPlayfield = .ok course) (track : Track) :
    load layout settings track = .ok () (track.replace course settings) := by
  rw [load, h]
  rfl

theorem load_of_lay_error {error : TrackError Float}
    (h : Course.lay layout settings.toPlayfield = .error error) (track : Track) :
    load layout settings track = .error error track := by
  rw [load, h]
  rfl

theorem loadText_of_ofText [Json.NumberText] {text : List Char} {bundle : Bundle}
    (h : Bundle.ofText text = .ok bundle) :
    loadText text = load bundle.layout bundle.settings := by
  rw [loadText, h]
  rfl

end

/-- A layout is refused by every track or by none, and whatever the rule for collisions. -/
theorem load_cases (layout : Layout Float) (field : Playfield Float) :
    (∃ error, ∀ reset track, load layout ⟨field, reset⟩ track = .error error track) ∨
      ∃ course, ∀ reset track,
        load layout ⟨field, reset⟩ track = .ok () (track.replace course ⟨field, reset⟩) := by
  cases hcourse : Course.lay layout field with
  | error error => exact Or.inl ⟨error, fun _ => load_of_lay_error hcourse⟩
  | ok course => exact Or.inr ⟨course, fun _ => load_of_lay_ok hcourse⟩

theorem loadText_cases [Json.NumberText] (text : List Char) :
    (∃ error, ∀ track, loadText text track = .error error track) ∨
      ∃ bundle course, Bundle.ofText text = .ok bundle ∧
        ∀ track, loadText text track = .ok () (track.replace course bundle.settings) := by
  cases hbundle : Bundle.ofText text with
  | error error =>
      refine Or.inl ⟨error, fun track => ?_⟩
      rw [loadText, hbundle]
      rfl
  | ok bundle =>
      rw [loadText_of_ofText hbundle]
      rcases load_cases bundle.layout bundle.settings.toPlayfield with
        ⟨error, h⟩ | ⟨course, h⟩
      · exact Or.inl ⟨error, h _⟩
      · exact Or.inr ⟨bundle, course, rfl, h _⟩

section

variable (track : Track) (counters : Counters) (p : Progress) (query : Query) (millis : Float)

@[simp] theorem answerOn_snd : (track.answerOn counters p query millis).2.2 =
    query.run track.course track.settings.resetOnCollision p := by
  obtain ⟨course, settings, loaded, on, metrics⟩ := track
  cases on <;> rfl

theorem answerOn_fst : (track.answerOn counters p query millis).1 =
    { track with metrics := (track.answerOn counters p query millis).1.metrics } := by
  obtain ⟨course, settings, loaded, on, metrics⟩ := track
  cases on <;> rfl

@[simp]
theorem answerOn_course : (track.answerOn counters p query millis).1.course = track.course := by
  rw [answerOn_fst]

end

end Raceway.Track
