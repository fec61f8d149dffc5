import Raceway.Proofs.Bundle
import Raceway.Proofs.Session.Residue
/-!
# One track from a text or from flat lists

A bundle can be handed over as a text, or as three flat lists of coordinates and a playfield.
Either way the same layout is laid with the same checks, and the session ends in the same state.
-/

namespace Raceway

namespace Session

/-- Loads a bundle, and sends the session's own racer back to the start. -/
def loadBundle (bundle : Bundle) : Action Session Unit := do
  onTrack (Track.load bundle.layout bundle.settings)
  modify resetOwn

theorem loadBundle_of_ok {bundle : Bundle} {course : Course Float}
    (h : Course.lay bundle.layout bundle.settings.toPlayfield = .ok course) (session : Session) :
    loadBundle bundle session =
      .ok () ⟨session.track.replace course bundle.settings, Progress.start⟩ := by
  rw [loadBundle, Action.bind_of_ok (onTrack_of_ok (Track.load_of_lay_ok h session.track))]
  rfl

theorem loadBundle_of_error {bundle : Bundle} {error : TrackError Float}
    (h : Course.lay bundle.layout bundle.settings.toPlayfield = .error error)
    (session : Session) : loadBundle bundle session = .error error session := by
  rw [loadBundle,
    Action.bind_of_error (onTrack_of_error (Track.load_of_lay_error h session.track))]

theorem load_flat (bundle : Bundle) {session : Session}
    (h : session.track.settings.resetOnCollision = bundle.settings.resetOnCollision) :
    load (Point.flat bundle.layout.inner) (Point.flat bundle.layout.outer)
      (Point.flat bundle.layout.checkpoints) bundle.settings.toPlayfield session =
        loadBundle bundle session := by
  rw [load, Layout.ofFlat_flat, loadBundle]
  change (onTrack (Track.load bundle.layout
    ⟨bundle.settings.toPlayfield, session.track.settings.resetOnCollision⟩) >>=
      fun _ => modify resetOwn) session = _
  rw [h]

/-- A text that holds a bundle is loaded as the layout and the settings of the bundle are, on every
track.  In a session that has the bundle's rule for collisions, the flat lists of the bundle do the
same as its text: either both are refused with the error of the course and leave the session as it
is, or both put the same course on the track and the session's own racer at the start. -/
theorem loadText_agrees_with_flat_load [Json.NumberText] {text : List Char} {bundle : Bundle}
    (hbundle : Bundle.ofText text = .ok bundle) :
    (∀ track : Track,
        Track.loadText text track = Track.load bundle.layout bundle.settings track) ∧
      ∀ session : Session,
        session.track.settings.resetOnCollision = bundle.settings.resetOnCollision →
          load (Point.flat bundle.layout.inner) (Point.flat bundle.layout.outer)
              (Point.flat bundle.layout.checkpoints) bundle.settings.toPlayfield session =
            loadText text session ∧
          match Course.lay bundle.layout bundle.settings.toPlayfield with
          | .error error => loadText text session = .error error session
          | .ok course => loadText text session =
              .ok () ⟨session.track.replace course bundle.settings, Progress.start⟩ := by
  have htrack := Track.loadText_of_ofText hbundle
  have hsession : loadText text = loadBundle bundle := by
    rw [loadText, htrack, loadBundle]
  refine ⟨fun track => by rw [htrack], fun session hreset => ?_⟩
  rw [hsession, load_flat bundle hreset]
  refine ⟨rfl, ?_⟩
  cases hlay : Course.lay bundle.layout bundle.settings.toPlayfield with
  | error error => exact loadBundle_of_error hlay session
  | ok course => exact loadBundle_of_ok hlay session

/-- Two walls of two points each and a gate between them, in which collisions do not reset. -/
def strip : Bundle where
  layout := ⟨[⟨0, 0⟩, ⟨8, 0⟩], [⟨0, 4⟩, ⟨8, 4⟩], [⟨2, 0⟩, ⟨2, 4⟩]⟩
  settings := ⟨⟨0, 0, 10, 10, 5⟩, false⟩

/-- An empty session in which collisions do not reset. -/
def lenient : Session :=
  ⟨Track.empty.setReset false, Progress.start⟩

attribute [local instance] Json.NumberText.nearest

theorem loadText_agrees_with_flat_load_strip :
    Bundle.ofText strip.write = .ok strip ∧
      Track.loadText strip.write Track.empty =
        Track.load strip.layout strip.settings Track.empty ∧
      lenient.track.settings.resetOnCollision = strip.settings.resetOnCollision ∧
      load [0, 0, 8, 0] [0, 4, 8, 4] [2, 0, 2, 4] ⟨0, 0, 10, 10, 5⟩ lenient =
        loadText strip.write lenient ∧
      ∃ course, Course.lay strip.layout strip.settings.toPlayfield = .ok course ∧
        loadText strip.write lenient =
          .ok () ⟨lenient.track.replace course strip.settings, Progress.start⟩ := by
  have hfinite : strip.doubles.all Float.isFinite = true := by rfl
  have htext : Bundle.ofText strip.write = .ok strip :=
    (strip.ofText_write Json.NumberText.faithful_nearest).2 (List.all_eq_true.mp hfinite)
  obtain ⟨htrack, hsession⟩ := loadText_agrees_with_flat_load htext
  obtain ⟨hflat, hloaded⟩ := hsession lenient rfl
  have hlaid : (Course.lay strip.layout strip.settings.toPlayfield).isOk = true := by rfl
  refine ⟨htext, htrack Track.empty, rfl, hflat, ?_⟩
  cases hlay : Course.lay strip.layout strip.settings.toPlayfield with
  | error error =>
      rw [hlay] at hlaid
      cases hlaid
  | ok course =>
      rw [hlay] at hloaded
      exact ⟨course, rfl, hloaded⟩

end Session

end Raceway
