import Raceway.Proofs.Progress
/-!
# Tours

A racer belongs to no track, so its queries may be put to one course after another, with gates that
its cursor knows nothing about.  Each query is safe for a racer in any state, and over a whole tour
the counters add up what the queries report, as far as they can hold it.
-/

namespace Raceway

/-- A query put to a course, and whether collisions reset there. -/
structure Leg where
  course : Course Float
  reset : Bool
  query : Query

/-- A racer on a leg, with the progress that it brings along. -/
structure Visit extends Leg where
  racer : Progress

namespace Visit

/-! ## One leg -/

def step (visit : Visit) : Step :=
  visit.query.run visit.course visit.reset visit.racer

/-- The racer when its hitbox is tested against the gate at its cursor. -/
def atGate (visit : Visit) : Progress :=
  visit.query.atGate visit.course visit.reset visit.racer

/-- Whether the last gate of the course is crossed. -/
def completesLap (visit : Visit) : Bool :=
  visit.step.outcome.checkpointHit &&
    visit.atGate.cursor.toNat + 1 == visit.course.gates.length

/-- What a leg may do to its racer, wherever the cursor has been left and whatever the counters say.
On a course with gates the tested gate is one of them, the next cursor does not wrap, and the cursor
is left at a gate.  Each counter goes up by one for its event, up to its limit. -/
structure Safe (visit : Visit) : Prop where
  gate_lt : 0 < visit.course.gates.length →
    visit.atGate.cursor.toNat < visit.course.gates.length
  next_toNat : 0 < visit.course.gates.length →
    (visit.atGate.cursor + 1).toNat = visit.atGate.cursor.toNat + 1
  checkpointHit_iff : visit.step.outcome.checkpointHit = true ↔
    ∃ gate, visit.course.gates[visit.atGate.cursor.toNat]? = some gate ∧
      visit.query.hitbox.crosses gate = true
  cursor_lt : 0 < visit.course.gates.length →
    visit.step.progress.cursor.toNat < visit.course.gates.length
  cursor_eq : visit.course.gates.length = 0 → visit.step.progress.cursor =
    if visit.step.outcome.playerHit && visit.reset then 0 else visit.racer.cursor
  crossings_eq : visit.step.progress.crossings.toNat =
    min (visit.racer.crossings.toNat + visit.step.outcome.checkpointHit.toNat) (2 ^ 64 - 1)
  collisions_eq : visit.step.progress.collisions.toNat =
    min (visit.racer.collisions.toNat + visit.step.outcome.playerHit.toNat) (2 ^ 64 - 1)
  laps_eq : visit.step.progress.laps.toNat =
    min (visit.racer.laps.toNat + visit.completesLap.toNat) (2 ^ 32 - 1)

/-- Gates are counted by a word, so a cursor that points at one has a successor. -/
theorem safe (visit : Visit) (hfit : visit.course.gates.length < 2 ^ 64) : visit.Safe where
  gate_lt hgates := Query.atGate_cursor_lt _ _ _ _ hgates
  next_toNat hgates := by
    have hcursor : visit.atGate.cursor.toNat < visit.course.gates.length :=
      Query.atGate_cursor_lt _ _ _ _ hgates
    exact next_toNat (Nat.lt_of_le_of_lt hcursor hfit)
  checkpointHit_iff := Query.run_checkpointHit_iff_atGate _ _ _ _
  cursor_lt hgates := Query.run_cursor_lt _ _ _ _ hgates
  cursor_eq hnone := Query.run_cursor_of_no_gates _ _ _ _ hnone
  crossings_eq := Query.run_crossings_toNat _ _ _ _
  collisions_eq := Query.run_collisions_toNat _ _ _ _
  laps_eq := Query.run_laps_toNat _ _ _ _ hfit

end Visit

namespace Progress

/-! ## Whole tours -/

/-- The legs of a tour in order, each with the racer as it comes there. -/
def visits (p : Progress) : List Leg → List Visit
  | [] => []
  | leg :: legs => ⟨leg, p⟩ :: (Visit.mk leg p).step.progress.visits legs

/-- The progress of a racer when it has gone through some legs. -/
def finish (p : Progress) (legs : List Leg) : Progress :=
  legs.foldl (fun p leg => (Visit.mk leg p).step.progress) p

theorem finish_cons (p : Progress) (leg : Leg) (legs : List Leg) :
    p.finish (leg :: legs) = (Visit.mk leg p).step.progress.finish legs := rfl

theorem finish_append (p : Progress) (legs more : List Leg) :
    p.finish (legs ++ more) = (p.finish legs).finish more :=
  List.foldl_append

@[simp] theorem map_toLeg_visits (p : Progress) (legs : List Leg) :
    (p.visits legs).map Visit.toLeg = legs := by
  induction legs generalizing p with
  | nil => rfl
  | cons leg legs ih => rw [visits, List.map_cons, ih]

theorem safe_of_mem_visits {p : Progress} {legs : List Leg}
    (hfit : ∀ leg ∈ legs, leg.course.gates.length < 2 ^ 64) {visit : Visit}
    (hvisit : visit ∈ p.visits legs) : visit.Safe := by
  have hleg : visit.toLeg ∈ legs := by
    rw [← map_toLeg_visits p legs]
    exact List.mem_map_of_mem hvisit
  exact visit.safe (hfit visit.toLeg hleg)

theorem finish_count (count : Progress → ℕ) {event : Visit → Bool} {limit : ℕ}
    (hlimit : ∀ p, count p ≤ limit) {p : Progress} {legs : List Leg}
    (hstep : ∀ visit ∈ p.visits legs,
      count visit.step.progress = min (count visit.racer + (event visit).toNat) limit) :
    count (p.finish legs) = min (count p + (p.visits legs).countP event) limit := by
  induction legs generalizing p with
  | nil => exact (min_eq_left (hlimit p)).symm
  | cons leg legs ih =>
      have hfirst : count (Visit.mk leg p).step.progress =
          min (count p + (event ⟨leg, p⟩).toNat) limit := hstep _ List.mem_cons_self
      have hcount : (p.visits (leg :: legs)).countP event =
          ((Visit.mk leg p).step.progress.visits legs).countP event +
            (event ⟨leg, p⟩).toNat := by
        rw [visits, List.countP_cons]
        cases event ⟨leg, p⟩ <;> rfl
      rw [finish_cons, ih fun visit hvisit => hstep visit (List.mem_cons_of_mem _ hvisit), hfirst,
        hcount]
      omega

/-- Whether the counters have gone from `p` to `q` by what some visits report, up to their
limits. -/
structure Counted (p : Progress) (visits : List Visit) (q : Progress) : Prop where
  crossings_eq : q.crossings.toNat = min (p.crossings.toNat +
    visits.countP fun visit => visit.step.outcome.checkpointHit) (2 ^ 64 - 1)
  collisions_eq : q.collisions.toNat = min (p.collisions.toNat +
    visits.countP fun visit => visit.step.outcome.playerHit) (2 ^ 64 - 1)
  laps_eq : q.laps.toNat = min (p.laps.toNat + visits.countP Visit.completesLap) (2 ^ 32 - 1)

theorem counted_finish (p : Progress) {legs : List Leg}
    (hfit : ∀ leg ∈ legs, leg.course.gates.length < 2 ^ 64) :
    p.Counted (p.visits legs) (p.finish legs) where
  crossings_eq := by
    refine finish_count (fun p => p.crossings.toNat) ?_ ?_
    · exact fun p => Nat.le_sub_one_of_lt p.crossings.toNat_lt
    · exact fun visit hvisit => (safe_of_mem_visits hfit hvisit).crossings_eq
  collisions_eq := by
    refine finish_count (fun p => p.collisions.toNat) ?_ ?_
    · exact fun p => Nat.le_sub_one_of_lt p.collisions.toNat_lt
    · exact fun visit hvisit => (safe_of_mem_visits hfit hvisit).collisions_eq
  laps_eq := by
    refine finish_count (fun p => p.laps.toNat) ?_ ?_
    · exact fun p => Nat.le_sub_one_of_lt p.laps.toNat_lt
    · exact fun visit hvisit => (safe_of_mem_visits hfit hvisit).laps_eq

/-- Whether no counter of `p` is above the one of `q`. -/
structure Behind (p q : Progress) : Prop where
  crossings_le : p.crossings ≤ q.crossings
  collisions_le : p.collisions ≤ q.collisions
  laps_le : p.laps ≤ q.laps

theorem Counted.behind {p q : Progress} {visits : List Visit} (h : p.Counted visits q) :
    p.Behind q where
  crossings_le := by
    rw [UInt64.le_iff_toNat_le, h.crossings_eq]
    exact Nat.le_min.mpr ⟨Nat.le_add_right _ _, Nat.le_sub_one_of_lt p.crossings.toNat_lt⟩
  collisions_le := by
    rw [UInt64.le_iff_toNat_le, h.collisions_eq]
    exact Nat.le_min.mpr ⟨Nat.le_add_right _ _, Nat.le_sub_one_of_lt p.collisions.toNat_lt⟩
  laps_le := by
    rw [UInt32.le_iff_toNat_le, h.laps_eq]
    exact Nat.le_min.mpr ⟨Nat.le_add_right _ _, Nat.le_sub_one_of_lt p.laps.toNat_lt⟩

/-- A racer in any state is safe on a tour of any courses, whose gates are as many as a word can
count.  On each leg the tested gate exists, no cursor wraps and each counter goes up exactly for its
event.  At the finish the counters are those of the start and all events in between, up to their
limits, and on the way none of them has ever gone down. -/
theorem safe_along_tour (p : Progress) {legs : List Leg}
    (hfit : ∀ leg ∈ legs, leg.course.gates.length < 2 ^ 64) :
    (∀ visit ∈ p.visits legs, visit.Safe) ∧ p.Counted (p.visits legs) (p.finish legs) ∧
      ∀ done, done <+: legs → (p.finish done).Behind (p.finish legs) := by
  refine ⟨fun visit hvisit => safe_of_mem_visits hfit hvisit, counted_finish p hfit, ?_⟩
  rintro done ⟨ahead, rfl⟩
  have hahead : ∀ leg ∈ ahead, leg.course.gates.length < 2 ^ 64 :=
    fun leg hleg => hfit leg (List.mem_append_right done hleg)
  rw [finish_append]
  exact (counted_finish (p.finish done) hahead).behind

/-- A wall at `x = 8`, and gates in front of it or behind it. -/
def gatesAt (xs : List Float) : Course Float where
  grid := Grid.ofDimensions ⟨0, 0, 10, 10, 10⟩ ⟨2, 2⟩ [⟨⟨8, 0⟩, ⟨8, 10⟩⟩]
  gates := xs.map fun x => ⟨⟨x, 0⟩, ⟨x, 10⟩⟩

/-- A racer from a track with more gates, short of the last lap that it can count. -/
def veteran : Progress := ⟨7, 0xFFFFFFFE, 0xFFFFFFFFFFFFFFFF, 4⟩

/-- Two gates, one gate and a wall, the wall alone, and one gate again. -/
def veteranTour : List Leg :=
  [⟨gatesAt [2, 4], false, ⟨[], ⟨2, 5⟩, Hitbox.around ⟨2, 5⟩ 1 1⟩⟩,
    ⟨gatesAt [4], false, ⟨[], ⟨5, 5⟩, Hitbox.around ⟨5, 5⟩ 4 1⟩⟩,
    ⟨gatesAt [], true, ⟨[], ⟨8, 5⟩, Hitbox.around ⟨8, 5⟩ 1 1⟩⟩,
    ⟨gatesAt [2], true, ⟨[], ⟨2, 5⟩, Hitbox.around ⟨2, 5⟩ 1 1⟩⟩]

theorem safe_along_tour_veteran :
    (∀ leg ∈ veteranTour, leg.course.gates.length < 2 ^ 64) ∧
      veteran.finish veteranTour = ⟨0, 0xFFFFFFFF, 0xFFFFFFFFFFFFFFFF, 6⟩ ∧
      (∀ visit ∈ veteran.visits veteranTour, visit.Safe) ∧
      veteran.Counted (veteran.visits veteranTour) ⟨0, 0xFFFFFFFF, 0xFFFFFFFFFFFFFFFF, 6⟩ ∧
      veteran.Behind ⟨0, 0xFFFFFFFF, 0xFFFFFFFFFFFFFFFF, 6⟩ := by
  have hfit : ∀ leg ∈ veteranTour, leg.course.gates.length < 2 ^ 64 := by
    simp only [veteranTour, List.forall_mem_cons, gatesAt, List.length_map]
    decide
  have hfinish : veteran.finish veteranTour = ⟨0, 0xFFFFFFFF, 0xFFFFFFFFFFFFFFFF, 6⟩ := by
    decide +kernel
  obtain ⟨hsafe, hcounted, hbehind⟩ := safe_along_tour veteran hfit
  have hstart := hbehind [] List.nil_prefix
  rw [hfinish] at hcounted hstart
  exact ⟨hfit, hfinish, hsafe, hcounted, hstart⟩

end Progress

end Raceway
