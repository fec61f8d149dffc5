import Raceway.Proofs.Course
import Raceway.Proofs.Grid.Acceptance
import Raceway.Proofs.Layout
import Raceway.Proofs.Session.Residue
/-!
# The checks of a load

Flat lists and a playfield go through nine checks before they are put on a track.  The checks are
made by four operations that call each other.  However many of them fail, the first one alone
decides which error is reported.
-/

namespace Raceway

/-! ## Checks one after another -/

/-- A check, and the error that is reported if it fails. -/
structure Check (ε : Type) where
  passes : Bool
  error : ε

namespace Check

variable {ε β γ : Type}

/-- The error of the first check that fails. -/
def firstFault (checks : List (Check ε)) : Option ε :=
  (checks.find? fun check => !check.passes).map Check.error

@[simp] theorem firstFault_append (checks more : List (Check ε)) :
    firstFault (checks ++ more) = (firstFault checks).or (firstFault more) := by
  rw [firstFault, List.find?_append, Option.map_or]
  rfl

theorem firstFault_eq_none_iff {checks : List (Check ε)} :
    firstFault checks = none ↔ ∀ check ∈ checks, check.passes = true := by
  rw [firstFault, Option.map_eq_none_iff, List.find?_eq_none]
  simp only [Bool.not_eq_true', Bool.not_eq_false]

/-- The error of a step that fails. -/
def fault : Except ε β → Option ε
  | .ok _ => none
  | .error error => some error

theorem fault_ite {P : Prop} [Decidable P] {x : Except ε β} {error : ε} {checks : List (Check ε)}
    (hx : P → fault x = firstFault checks) :
    fault (if P then x else .error error) = firstFault (⟨P, error⟩ :: checks) := by
  by_cases h : P
  · rw [if_pos h, hx h, firstFault, firstFault, List.find?_cons_of_neg (by simp [h])]
  · rw [if_neg h, firstFault, List.find?_cons_of_pos (by simp [h])]
    rfl

theorem fault_map {x : Except ε β} {checks : List (Check ε)} (hx : fault x = firstFault checks)
    (f : β → γ) : fault (x >>= fun b => .ok (f b)) = firstFault checks := by
  rw [← hx]
  cases x <;> rfl

theorem fault_bind {x : Except ε β} {next : β → Except ε γ} {checks more : List (Check ε)}
    (hx : fault x = firstFault checks)
    (hnext : ∀ b, x = .ok b → fault (next b) = firstFault more) :
    fault (x >>= next) = firstFault (checks ++ more) := by
  rw [firstFault_append, ← hx]
  cases x with
  | ok b => exact hnext b rfl
  | error error => rfl

end Check

open Check

/-! ## The checks of each operation -/

variable {α : Type}

/-- Coordinates come two by two. -/
def Buffer.evenCheck (buffer : Buffer) (coords : List α) : Check (TrackError α) :=
  ⟨coords.length % 2 = 0, .oddCoordinates buffer coords.length⟩

/-- A ring goes through two points at least. -/
def Ring.pointsCheck (ring : Ring) (count : ℕ) : Check (TrackError α) :=
  ⟨2 ≤ count, .tooFewPoints ring count⟩

/-- Each gate has two ends. -/
def gateCheck (count : ℕ) : Check (TrackError α) :=
  ⟨count % 2 = 0, .unpairedCheckpoint count⟩

/-- What is asked of the cells, the box and the number of tiles. -/
def Playfield.checks (field : Playfield Float) : List (Check (TrackError Float)) :=
  [⟨field.HasCell, .invalidCellSize field.cellSize⟩,
    ⟨field.HasBox, .invalidPlayfield field.width field.height⟩,
    ⟨field.HasSize, .gridTooLarge field.countedColumns field.countedRows⟩]

theorem Point.fault_ofFlat (buffer : Buffer) (coords : List α) :
    fault (Point.ofFlat buffer coords) = firstFault [buffer.evenCheck coords] := by
  simp only [Point.ofFlat, beq_iff_eq]
  exact fault_ite fun _ => rfl

theorem Layout.fault_ofFlat (inner outer checkpoints : List α) :
    fault (Layout.ofFlat inner outer checkpoints) =
      firstFault [Buffer.innerWall.evenCheck inner, Buffer.outerWall.evenCheck outer,
        Buffer.checkpoints.evenCheck checkpoints] := by
  refine fault_bind (Point.fault_ofFlat .innerWall inner) fun _ _ => ?_
  refine fault_bind (Point.fault_ofFlat .outerWall outer) fun _ _ => ?_
  exact fault_map (Point.fault_ofFlat .checkpoints checkpoints) _

/-- The layout that flat lists of even length draw. -/
def Layout.drawn (inner outer checkpoints : List α) : Layout α :=
  ⟨Point.pairUp inner, Point.pairUp outer, Point.pairUp checkpoints⟩

theorem Layout.of_ofFlat {inner outer checkpoints : List α} {layout : Layout α}
    (h : Layout.ofFlat inner outer checkpoints = .ok layout) :
    layout = drawn inner outer checkpoints := by
  unfold Layout.ofFlat at h
  obtain ⟨_, hinner, h⟩ := exists_of_bind_eq_ok h
  obtain ⟨_, houter, h⟩ := exists_of_bind_eq_ok h
  obtain ⟨_, hcheckpoints, h⟩ := exists_of_bind_eq_ok h
  rw [← Except.ok.inj h, (Point.of_ofFlat hinner).2, (Point.of_ofFlat houter).2,
    (Point.of_ofFlat hcheckpoints).2]
  rfl

theorem Playfield.fault_validate (field : Playfield Float) :
    fault field.validate = firstFault field.checks := by
  simp only [Playfield.validate_eq, ite_not]
  exact fault_ite fun _ => fault_ite fun _ => fault_ite fun _ => rfl

theorem Ring.fault_close (ring : Ring) (points : List (Point α)) :
    fault (ring.close points) = firstFault [ring.pointsCheck points.length] := by
  match points with
  | [] => rfl
  | [_] => rfl
  | a :: b :: rest =>
      refine (firstFault_eq_none_iff.mpr fun check hcheck => ?_).symm
      obtain rfl := List.mem_singleton.mp hcheck
      exact decide_eq_true (Nat.le_add_left 2 rest.length)

theorem Layout.fault_walls (layout : Layout α) :
    fault layout.walls = firstFault [Ring.inner.pointsCheck layout.inner.length,
      Ring.outer.pointsCheck layout.outer.length] := by
  refine fault_bind (Ring.inner.fault_close layout.inner) fun _ _ => ?_
  exact fault_map (Ring.outer.fault_close layout.outer) _

theorem Layout.fault_gates (layout : Layout α) :
    fault layout.gates = firstFault [gateCheck layout.checkpoints.length] := by
  simp only [Layout.gates, beq_iff_eq]
  exact fault_ite fun _ => rfl

theorem Course.fault_lay (layout : Layout Float) (field : Playfield Float) :
    fault (Course.lay layout field) = firstFault (field.checks ++
      [Ring.inner.pointsCheck layout.inner.length, Ring.outer.pointsCheck layout.outer.length,
        gateCheck layout.checkpoints.length]) := by
  refine fault_bind field.fault_validate fun _ hvalid => ?_
  refine fault_bind layout.fault_walls fun walls _ => ?_
  obtain ⟨size, hsize, -⟩ := (Playfield.validate_eq_ok_iff.mp hvalid).exists_dimensions
  rw [Grid.build_eq hsize]
  exact fault_map layout.fault_gates _

namespace Session

/-! ## Loading -/

/-- The checks of a load in the order in which they are made: the three lists, then the cells, the
box and the number of tiles, then the rings, and last the gates. -/
def loadChecks (inner outer checkpoints : List Float) (field : Playfield Float) :
    List (Check (TrackError Float)) :=
  [Buffer.innerWall.evenCheck inner, Buffer.outerWall.evenCheck outer,
    Buffer.checkpoints.evenCheck checkpoints] ++ field.checks ++
  [Ring.inner.pointsCheck (inner.length / 2), Ring.outer.pointsCheck (outer.length / 2),
    gateCheck (checkpoints.length / 2)]

/-- Whether flat lists and a playfield make a track: the lists hold whole points, the playfield is
valid, both rings have two points at least and the ends of the gates come in pairs. -/
structure Loadable (inner outer checkpoints : List Float) (field : Playfield Float) : Prop where
  inner_even : inner.length % 2 = 0
  outer_even : outer.length % 2 = 0
  checkpoints_even : checkpoints.length % 2 = 0
  field_valid : field.validate = .ok ()
  inner_points : 2 ≤ inner.length / 2
  outer_points : 2 ≤ outer.length / 2
  checkpoints_paired : checkpoints.length / 2 % 2 = 0

variable {inner outer checkpoints : List Float} {field : Playfield Float}

theorem firstFault_loadChecks_eq_none_iff :
    firstFault (loadChecks inner outer checkpoints field) = none ↔
      Loadable inner outer checkpoints field := by
  simp only [firstFault_eq_none_iff, loadChecks, Playfield.checks, List.cons_append,
    List.nil_append, List.forall_mem_cons, Buffer.evenCheck, Ring.pointsCheck, gateCheck,
    decide_eq_true_eq]
  constructor
  · rintro ⟨hinner, houter, hcheckpoints, hcell, hbox, hsize, hin, hout, hpairs, -⟩
    exact ⟨hinner, houter, hcheckpoints,
      Playfield.validate_eq_ok_iff.mpr ⟨hcell, hbox, hsize⟩, hin, hout, hpairs⟩
  · intro h
    obtain ⟨hcell, hbox, hsize⟩ := Playfield.validate_eq_ok_iff.mp h.field_valid
    exact ⟨h.inner_even, h.outer_even, h.checkpoints_even, hcell, hbox, hsize, h.inner_points,
      h.outer_points, h.checkpoints_paired, fun _ hnil => nomatch hnil⟩

theorem fault_layFlat (inner outer checkpoints : List Float) (field : Playfield Float) :
    fault (layFlat inner outer checkpoints field) =
      firstFault (loadChecks inner outer checkpoints field) := by
  rw [loadChecks, List.append_assoc]
  refine fault_bind (Layout.fault_ofFlat inner outer checkpoints) fun layout hlayout => ?_
  obtain rfl := Layout.of_ofFlat hlayout
  simp [Course.fault_lay, Layout.drawn]

/-- Whether a load succeeds can be told from the lengths of the lists and the playfield.  A load
that does not succeed reports the first check that fails, and leaves the session as it is.  A load
that succeeds puts the course of the layout that the lists draw on the track. -/
theorem load_reports_first_fault (inner outer checkpoints : List Float) (field : Playfield Float)
    (session : Session) :
    ((∃ loaded, load inner outer checkpoints field session = .ok () loaded) ↔
        Loadable inner outer checkpoints field) ∧
      match firstFault (loadChecks inner outer checkpoints field) with
      | some error => load inner outer checkpoints field session = .error error session
      | none => ∃ laid, Course.lay (.drawn inner outer checkpoints) field = .ok laid ∧
          load inner outer checkpoints field session =
            .ok () ⟨session.track.replace laid
              ⟨field, session.track.settings.resetOnCollision⟩, Progress.start⟩ := by
  rw [← firstFault_loadChecks_eq_none_iff, load_eq, ← fault_layFlat]
  cases hlaid : layFlat inner outer checkpoints field with
  | error error =>
      refine ⟨⟨?_, ?_⟩, rfl⟩
      · rintro ⟨loaded, hloaded⟩
        cases hloaded
      · intro hnone
        cases hnone
  | ok laid =>
      obtain ⟨layout, hlayout, hlay⟩ := exists_of_bind_eq_ok hlaid
      obtain rfl := Layout.of_ofFlat hlayout
      exact ⟨⟨fun _ => rfl, fun _ => ⟨_, rfl⟩⟩, laid, hlay, rfl⟩

/-- One point for the inner ring, an odd list for the outer one, three ends of gates and cells
without size. -/
example : load [1, 1] [0, 4, 8, 4, 9] [2, 0, 2, 4, 6, 0] ⟨0, 0, 10, 10, 0⟩ empty =
    .error (.oddCoordinates .outerWall 5) empty := by rfl

end Session

end Raceway
