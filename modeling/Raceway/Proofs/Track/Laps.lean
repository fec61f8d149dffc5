import Mathlib.Data.List.Induction
import Raceway.Proofs.Progress
/-!
# Laps of a run

The log of a racer is cut before every collision that resets.  Within a stretch the cursor goes
round the gates without a break, so the stretches account for the cursor and the laps, and the
whole log accounts for the two other counters.
-/

namespace Raceway

/-- A query in the log of a racer: whether collisions reset at the time, and what was reported. -/
structure Entry where
  reset : Bool
  outcome : Outcome

namespace Entry

/-- Whether the racer was sent back to the first gate. -/
def restarts (entry : Entry) : Bool :=
  entry.outcome.playerHit && entry.reset

end Entry

/-- How many queries of a log crossed a gate. -/
def gateHits (log : List Entry) : Nat :=
  log.countP fun entry => entry.outcome.checkpointHit

/-- How many queries of a log touched a wall. -/
def wallHits (log : List Entry) : Nat :=
  log.countP fun entry => entry.outcome.playerHit

@[simp] theorem gateHits_append_singleton (log : List Entry) (entry : Entry) :
    gateHits (log ++ [entry]) = gateHits log + entry.outcome.checkpointHit.toNat := by
  rw [gateHits, List.countP_append, List.countP_singleton, ← gateHits]
  cases entry.outcome.checkpointHit <;> rfl

@[simp] theorem wallHits_append_singleton (log : List Entry) (entry : Entry) :
    wallHits (log ++ [entry]) = wallHits log + entry.outcome.playerHit.toNat := by
  rw [wallHits, List.countP_append, List.countP_singleton, ← wallHits]
  cases entry.outcome.playerHit <;> rfl

theorem gateHits_le_length (log : List Entry) : gateHits log ≤ log.length :=
  List.countP_le_length

theorem wallHits_le_length (log : List Entry) : wallHits log ≤ log.length :=
  List.countP_le_length

/-! ## Stretches -/

/-- A log cut before every query that restarts: the finished stretches and the current one. -/
structure Stretches where
  finished : List (List Entry)
  current : List Entry

namespace Stretches

def empty : Stretches := ⟨[], []⟩

/-- Finishes the current stretch. -/
def cut (s : Stretches) : Stretches := ⟨s.finished ++ [s.current], []⟩

/-- Extends the current stretch. -/
def push (s : Stretches) (entry : Entry) : Stretches := ⟨s.finished, s.current ++ [entry]⟩

/-- Finishes the current stretch if a query restarts. -/
def reopen (s : Stretches) (entry : Entry) : Stretches :=
  if entry.restarts then s.cut else s

def add (s : Stretches) (entry : Entry) : Stretches :=
  (s.reopen entry).push entry

def ofLog (log : List Entry) : Stretches :=
  log.foldl add empty

/-- All stretches, the current one last. -/
def all (s : Stretches) : List (List Entry) := s.finished ++ [s.current]

/-- How often the gates were crossed all round, stretch by stretch. -/
def rounds (s : Stretches) (gateCount : Nat) : Nat :=
  (s.all.map fun stretch => gateHits stretch / gateCount).sum

@[simp] theorem ofLog_append_singleton (log : List Entry) (entry : Entry) :
    ofLog (log ++ [entry]) = (ofLog log).add entry := by
  rw [ofLog, List.foldl_append, ← ofLog]
  rfl

@[simp] theorem flatten_cut (s : Stretches) : s.cut.all.flatten = s.all.flatten := by
  rw [all, cut, List.flatten_append, ← all]
  exact List.append_nil _

@[simp] theorem flatten_reopen (s : Stretches) (entry : Entry) :
    (s.reopen entry).all.flatten = s.all.flatten := by
  rw [reopen]
  split_ifs
  · exact flatten_cut s
  · rfl

@[simp] theorem flatten_push (s : Stretches) (entry : Entry) :
    (s.push entry).all.flatten = s.all.flatten ++ [entry] := by
  simp only [all, push, List.flatten_append, List.flatten_singleton, List.append_assoc]

@[simp] theorem flatten_ofLog (log : List Entry) : (ofLog log).all.flatten = log := by
  induction log using List.reverseRecOn with
  | nil => rfl
  | append_singleton log entry ih =>
      simp [add, ih]

theorem rounds_eq (s : Stretches) (gateCount : Nat) :
    s.rounds gateCount =
      (s.finished.map fun stretch => gateHits stretch / gateCount).sum +
        gateHits s.current / gateCount := by
  rw [rounds, all, List.map_append, List.sum_append]
  rfl

@[simp] theorem rounds_cut (s : Stretches) (gateCount : Nat) :
    s.cut.rounds gateCount = s.rounds gateCount := by
  rw [rounds_eq, rounds, all, cut]
  exact congrArg (_ + ·) (Nat.zero_div gateCount)

theorem rounds_push (s : Stretches) {gateCount : Nat} (hcount : 0 < gateCount) (entry : Entry) :
    (s.push entry).rounds gateCount = s.rounds gateCount +
      (gateHits s.current % gateCount + entry.outcome.checkpointHit.toNat) / gateCount := by
  -- One gate more completes a round exactly when the remainder reaches the number of gates.
  have hsplit : gateHits s.current + entry.outcome.checkpointHit.toNat =
      gateCount * (gateHits s.current / gateCount) +
        (gateHits s.current % gateCount + entry.outcome.checkpointHit.toNat) := by
    rw [← Nat.add_assoc, Nat.div_add_mod]
  rw [rounds_eq, rounds_eq, push, gateHits_append_singleton, hsplit, Nat.mul_add_div hcount,
    Nat.add_assoc]

theorem rounds_le (s : Stretches) (gateCount : Nat) :
    s.rounds gateCount ≤ gateHits s.all.flatten := by
  rw [rounds, gateHits, List.countP_flatten]
  induction s.all with
  | nil => exact Nat.le_refl 0
  | cons stretch rest ih =>
      rw [List.map_cons, List.map_cons, List.sum_cons, List.sum_cons]
      exact Nat.add_le_add (Nat.div_le_self _ _) ih

/-! ## The cursor and the laps -/

/-- Whether a racer has gone as far as its stretches say. -/
structure Traces (gateCount : Nat) (s : Stretches) (p : Progress) : Prop where
  cursor_eq : p.cursor.toNat = gateHits s.current % gateCount
  laps_eq : p.laps.toNat = s.rounds gateCount

theorem Traces.contacted {gateCount : Nat} {s : Stretches} {p : Progress}
    (h : s.Traces gateCount p) (entry : Entry) :
    (s.reopen entry).Traces gateCount
      (p.contacted entry.outcome.playerHit entry.reset) where
  cursor_eq := by
    rw [Progress.contacted_cursor, ← Entry.restarts, reopen]
    split_ifs
    · exact (Nat.zero_mod gateCount).symm
    · exact h.cursor_eq
  laps_eq := by
    rw [reopen]
    split_ifs <;> simp [h.laps_eq]

theorem Traces.crossGate {gates : List (Segment Float)} {s : Stretches} {p : Progress}
    (h : s.Traces gates.length p) (hgates : 0 < gates.length) {box : Hitbox Float} (entry : Entry)
    (hentry : (p.crossGate gates box).2 = entry.outcome.checkpointHit)
    (hfit : gateHits s.all.flatten + 1 < 2 ^ 32) :
    (s.push entry).Traces gates.length (p.crossGate gates box).1 := by
  have hcursor : p.cursor.toNat < gates.length := by
    rw [h.cursor_eq]
    exact Nat.mod_lt _ hgates
  have hcurrent : gateHits s.current ≤ gateHits s.all.flatten := by
    rw [all, List.flatten_append, gateHits, gateHits, List.countP_append, List.flatten_singleton]
    exact Nat.le_add_left _ _
  -- The cursor and the laps are at most the number of gates crossed, far from their limits.
  have hcursorFit : p.cursor.toNat + 1 < 2 ^ 64 := by
    have hmod := Nat.mod_le (gateHits s.current) gates.length
    rw [← h.cursor_eq] at hmod
    omega
  have hlaps : p.laps.toNat + 1 < 2 ^ 32 := by
    have hrounds := s.rounds_le gates.length
    rw [← h.laps_eq] at hrounds
    omega
  constructor
  · rw [Progress.crossGate_cursor_toNat box hcursor hcursorFit, hentry, h.cursor_eq,
      Nat.mod_add_mod, push, gateHits_append_singleton]
  · rw [Progress.crossGate_laps_toNat box hcursor hcursorFit hlaps, hentry, h.cursor_eq, h.laps_eq,
      rounds_push s hgates]

/-- A query goes on from where the stretches have led. -/
theorem Traces.run {course : Course Float} {s : Stretches} {p : Progress}
    (hgates : 0 < course.gates.length) (h : s.Traces course.gates.length p)
    (hfit : gateHits s.all.flatten + 1 < 2 ^ 32) (query : Query) (reset : Bool) :
    (s.add ⟨reset, (query.run course reset p).outcome⟩).Traces course.gates.length
      (query.run course reset p).progress := by
  have hbefore : (s.reopen ⟨reset, (query.run course reset p).outcome⟩).Traces
      course.gates.length (query.beforeGate course reset p) := h.contacted _
  have hgate := query.crossGate_beforeGate course reset p
  rw [← flatten_reopen s ⟨reset, (query.run course reset p).outcome⟩] at hfit
  have hafter := hbefore.crossGate hgates ⟨reset, (query.run course reset p).outcome⟩
    (congrArg Prod.snd hgate) hfit
  rwa [hgate] at hafter

end Stretches

/-! ## The four counters -/

/-- Whether the counters of a racer are those of its log. -/
structure Progress.Accounts (gateCount : Nat) (log : List Entry) (p : Progress) : Prop where
  crossings_eq : p.crossings.toNat = gateHits log
  collisions_eq : p.collisions.toNat = wallHits log
  cursor_eq : p.cursor.toNat = gateHits (Stretches.ofLog log).current % gateCount
  laps_eq : p.laps.toNat =
    ((Stretches.ofLog log).all.map fun stretch => gateHits stretch / gateCount).sum

namespace Progress

theorem accounts_start (gateCount : Nat) : Accounts gateCount [] start where
  crossings_eq := rfl
  collisions_eq := rfl
  cursor_eq := (Nat.zero_mod gateCount).symm
  laps_eq := (Nat.zero_div gateCount).symm

variable {gateCount : Nat} {log : List Entry} {p : Progress}

theorem Accounts.traces (h : Accounts gateCount log p) :
    (Stretches.ofLog log).Traces gateCount p :=
  ⟨h.cursor_eq, h.laps_eq⟩

theorem Accounts.cursor_lt (h : Accounts gateCount log p) (hcount : 0 < gateCount) :
    p.cursor.toNat < gateCount := by
  rw [h.cursor_eq]
  exact Nat.mod_lt _ hcount

theorem Accounts.crossings_eq_of_forall (h : Accounts gateCount log p)
    (hlog : ∀ entry ∈ log, entry.restarts = false) :
    p.crossings.toNat = gateCount * p.laps.toNat + p.cursor.toNat := by
  have hone : Stretches.ofLog log = ⟨[], log⟩ := by
    clear h
    induction log using List.reverseRecOn with
    | nil => rfl
    | append_singleton log entry ih =>
        have hentry := hlog entry (List.mem_append_right log List.mem_cons_self)
        rw [Stretches.ofLog_append_singleton,
          ih fun e he => hlog e (List.mem_append_left [entry] he), Stretches.add,
          Stretches.reopen, hentry]
        rfl
  have hlaps : p.laps.toNat = gateHits log / gateCount := by
    rw [h.laps_eq, hone]
    exact Nat.add_zero _
  rw [h.crossings_eq, hlaps, h.cursor_eq, hone, Nat.div_add_mod]

theorem Accounts.run {course : Course Float} (hgates : 0 < course.gates.length)
    (h : Accounts course.gates.length log p) (hlog : log.length + 1 < 2 ^ 32) (query : Query)
    (reset : Bool) :
    Accounts course.gates.length (log ++ [⟨reset, (query.run course reset p).outcome⟩])
      (query.run course reset p).progress := by
  have hgateHits := gateHits_le_length log
  have hwallHits := wallHits_le_length log
  have hcheckpointHit := (query.run course reset p).outcome.checkpointHit.toNat_le
  have hplayerHit := (query.run course reset p).outcome.playerHit.toNat_le
  have htraces := h.traces.run hgates (by rw [Stretches.flatten_ofLog]; omega) query reset
  rw [← Stretches.ofLog_append_singleton] at htraces
  constructor
  · rw [query.run_crossings_toNat, h.crossings_eq, gateHits_append_singleton]
    exact min_eq_left (by omega)
  · rw [query.run_collisions_toNat, h.collisions_eq, wallHits_append_singleton]
    exact min_eq_left (by omega)
  · exact htraces.cursor_eq
  · exact htraces.laps_eq

end Progress

end Raceway
