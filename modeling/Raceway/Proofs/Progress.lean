import Mathlib.Algebra.Order.Ring.Nat
import Raceway.Query.Step
/-!
# Progress in one query

A query tests the walls first and one gate after them.  Its effect on each counter is an equation
between numbers: a counter goes up by one where there is something to count, up to its limit.  The
cursor may come from another course; it is settled before a gate is looked up with it.
-/

namespace Raceway

/-! ## Counting up -/

section

variable {w : ℕ} (n : BitVec w)

theorem toNat_add_one : (n + 1).toNat = (n.toNat + 1) % 2 ^ w := by
  simp [BitVec.toNat_add]

theorem countUp_toNat : (countUp n).toNat = min (n.toNat + 1) (2 ^ w - 1) := by
  have hnext := toNat_add_one n
  rcases Nat.lt_or_eq_of_le (Nat.succ_le_of_lt n.isLt) with h | h
  · rw [Nat.mod_eq_of_lt h] at hnext
    have hne : n + 1 ≠ 0 := by
      intro hzero
      rw [hzero] at hnext
      exact absurd hnext.symm (Nat.succ_ne_zero _)
    rw [countUp, if_neg hne, hnext]
    exact (min_eq_left (Nat.le_sub_one_of_lt h)).symm
  · have hzero : n + 1 = 0 := by
      apply BitVec.eq_of_toNat_eq
      rw [hnext, ← Nat.succ_eq_add_one, h, Nat.mod_self]
      rfl
    rw [countUp, if_pos hzero]
    omega

theorem countUp_if_toNat (event : Bool) :
    (if event then countUp n else n).toNat = min (n.toNat + event.toNat) (2 ^ w - 1) := by
  cases event with
  | false => exact (min_eq_left (Nat.le_sub_one_of_lt n.isLt)).symm
  | true => exact countUp_toNat n

end

theorem next_toNat {n : UInt64} (h : n.toNat + 1 < 2 ^ 64) : (n + 1).toNat = n.toNat + 1 :=
  (toNat_add_one n.toBitVec).trans (Nat.mod_eq_of_lt h)

@[simp]
theorem countUp64_toNat (n : UInt64) : (countUp64 n).toNat = min (n.toNat + 1) (2 ^ 64 - 1) :=
  countUp_toNat n.toBitVec

@[simp]
theorem countUp32_toNat (n : UInt32) : (countUp32 n).toNat = min (n.toNat + 1) (2 ^ 32 - 1) :=
  countUp_toNat n.toBitVec

theorem countUp64_if_toNat (n : UInt64) (event : Bool) :
    (if event then countUp64 n else n).toNat = min (n.toNat + event.toNat) (2 ^ 64 - 1) := by
  rw [← UInt64.toNat_toBitVec, apply_ite UInt64.toBitVec]
  exact countUp_if_toNat n.toBitVec event

theorem countUp32_if_toNat (n : UInt32) (event : Bool) :
    (if event then countUp32 n else n).toNat = min (n.toNat + event.toNat) (2 ^ 32 - 1) := by
  rw [← UInt32.toNat_toBitVec, apply_ite UInt32.toBitVec]
  exact countUp_if_toNat n.toBitVec event

namespace Progress

variable {p : Progress} {gateCount : Nat}

/-! ## Crossing a gate -/

theorem advance_eq (hcount : 0 < gateCount) : p.advance gateCount =
    if gateCount ≤ (p.cursor + 1).toNat then
      ⟨0, countUp32 p.laps, countUp64 p.crossings, p.collisions⟩
    else ⟨p.cursor + 1, p.laps, countUp64 p.crossings, p.collisions⟩ := by
  rw [advance, if_neg (Nat.ne_of_gt hcount)]

theorem advance_crossings (hcount : 0 < gateCount) :
    (p.advance gateCount).crossings = countUp64 p.crossings := by
  rw [advance_eq hcount]
  split_ifs <;> rfl

theorem advance_collisions (hcount : 0 < gateCount) :
    (p.advance gateCount).collisions = p.collisions := by
  rw [advance_eq hcount]
  split_ifs <;> rfl

theorem advance_cursor_lt (hcount : 0 < gateCount) :
    (p.advance gateCount).cursor.toNat < gateCount := by
  rw [advance_eq hcount]
  split_ifs with hwrap
  · exact hcount
  · exact Nat.not_le.mp hwrap

theorem advance_laps (hcursor : p.cursor.toNat < gateCount) (hfit : p.cursor.toNat + 1 < 2 ^ 64) :
    (p.advance gateCount).laps =
      if p.cursor.toNat + 1 = gateCount then countUp32 p.laps else p.laps := by
  have hwrap : gateCount ≤ (p.cursor + 1).toNat ↔ p.cursor.toNat + 1 = gateCount := by
    rw [next_toNat hfit]
    omega
  rw [advance_eq (Nat.zero_lt_of_lt hcursor)]
  simp only [hwrap]
  split_ifs <;> rfl

theorem advance_cursor_toNat (hcursor : p.cursor.toNat < gateCount)
    (hfit : p.cursor.toNat + 1 < 2 ^ 64) :
    (p.advance gateCount).cursor.toNat = (p.cursor.toNat + 1) % gateCount := by
  have hnext := next_toNat hfit
  rw [advance_eq (Nat.zero_lt_of_lt hcursor), hnext]
  split_ifs with hwrap
  · rw [Nat.le_antisymm hwrap hcursor, Nat.mod_self]
    rfl
  · rw [Nat.mod_eq_of_lt (Nat.not_le.mp hwrap), hnext]

theorem advance_laps_toNat (hcursor : p.cursor.toNat < gateCount)
    (hfit : p.cursor.toNat + 1 < 2 ^ 64) (hlaps : p.laps.toNat + 1 < 2 ^ 32) :
    (p.advance gateCount).laps.toNat = p.laps.toNat + (p.cursor.toNat + 1) / gateCount := by
  rw [advance_laps hcursor hfit]
  split_ifs with hlast
  · rw [hlast, Nat.div_self (Nat.zero_lt_of_lt hcursor)]
    rw [countUp32_toNat, min_eq_left (Nat.le_sub_one_of_lt hlaps)]
  · rw [Nat.div_eq_of_lt (Nat.lt_of_le_of_ne hcursor hlast)]
    rfl

/-! ## Touching a wall -/

/-- The progress after the test against the walls. -/
def contacted (p : Progress) (hit reset : Bool) : Progress :=
  if hit then p.collide reset else p

@[simp] theorem contacted_cursor (p : Progress) (hit reset : Bool) :
    (p.contacted hit reset).cursor = if hit && reset then 0 else p.cursor := by
  cases hit <;> rfl

theorem contacted_cursor_lt (hcursor : p.cursor.toNat < gateCount) (hit reset : Bool) :
    (p.contacted hit reset).cursor.toNat < gateCount := by
  rw [contacted_cursor]
  split_ifs
  · exact Nat.zero_lt_of_lt hcursor
  · exact hcursor

@[simp] theorem contacted_laps (p : Progress) (hit reset : Bool) :
    (p.contacted hit reset).laps = p.laps := by
  cases hit <;> rfl

@[simp] theorem contacted_crossings (p : Progress) (hit reset : Bool) :
    (p.contacted hit reset).crossings = p.crossings := by
  cases hit <;> rfl

@[simp] theorem contacted_collisions (p : Progress) (hit reset : Bool) :
    (p.contacted hit reset).collisions =
      if hit then countUp64 p.collisions else p.collisions := by
  cases hit <;> rfl

/-! ## The next gate -/

variable {gates : List (Segment Float)} (box : Hitbox Float)

theorem settle_of_lt (hcursor : p.cursor.toNat < gateCount) : p.settle gateCount = p := by
  rw [settle, if_neg (Nat.not_le.mpr hcursor)]

theorem settle_cursor_lt (hcount : 0 < gateCount) (p : Progress) :
    (p.settle gateCount).cursor.toNat < gateCount := by
  rw [settle]
  split_ifs with hstale
  · exact hcount
  · exact Nat.not_le.mp hstale

@[simp]
theorem settle_laps (p : Progress) (gateCount : Nat) : (p.settle gateCount).laps = p.laps := by
  rw [settle]
  split_ifs <;> rfl

@[simp] theorem settle_crossings (p : Progress) (gateCount : Nat) :
    (p.settle gateCount).crossings = p.crossings := by
  rw [settle]
  split_ifs <;> rfl

@[simp] theorem settle_collisions (p : Progress) (gateCount : Nat) :
    (p.settle gateCount).collisions = p.collisions := by
  rw [settle]
  split_ifs <;> rfl

/-- A racer whose cursor is at a gate either crosses that gate or stays where it is. -/
theorem crossGate_eq (hcursor : p.cursor.toNat < gates.length) :
    p.crossGate gates box =
      if box.crosses gates[p.cursor.toNat] then (p.advance gates.length, true) else (p, false) := by
  have hne : gates.isEmpty = false := by
    rw [List.isEmpty_eq_false_iff]
    exact List.ne_nil_of_length_pos (Nat.zero_lt_of_lt hcursor)
  simp only [crossGate, hne, Bool.false_eq_true, if_false, settle_of_lt hcursor,
    List.getElem?_eq_getElem hcursor]

theorem crossGate_cases (hcursor : p.cursor.toNat < gates.length) :
    p.crossGate gates box = (p.advance gates.length, true) ∨
      p.crossGate gates box = (p, false) := by
  rw [crossGate_eq box hcursor]
  split_ifs
  · exact Or.inl rfl
  · exact Or.inr rfl

/-- A crossing is reported exactly when the hitbox meets the next gate, which is the first one for
a cursor behind the last gate. -/
theorem crossGate_iff_settle : (p.crossGate gates box).2 = true ↔
    ∃ gate, gates[(p.settle gates.length).cursor.toNat]? = some gate ∧
      box.crosses gate = true := by
  simp only [crossGate]
  split_ifs with hempty
  · simp [List.isEmpty_iff.mp hempty]
  · cases gates[(p.settle gates.length).cursor.toNat]? with
    | none => simp
    | some gate => cases hcross : box.crosses gate <;> simp [hcross]

theorem crossGate_iff (hcursor : p.cursor.toNat < gates.length) :
    (p.crossGate gates box).2 = true ↔
      ∃ edge ∈ box.edges, edge.intersects gates[p.cursor.toNat] = true := by
  rw [crossGate_iff_settle, settle_of_lt hcursor, List.getElem?_eq_getElem hcursor]
  simp only [Option.some.injEq, exists_eq_left', Hitbox.crosses, List.any_eq_true]

theorem crossGate_of_no_gates (hnone : gates.length = 0) (p : Progress) :
    p.crossGate gates box = (p, false) := by
  rw [crossGate, if_pos (List.isEmpty_iff_length_eq_zero.mpr hnone)]

theorem crossGate_settle (hgates : 0 < gates.length) (p : Progress) :
    (p.settle gates.length).crossGate gates box = p.crossGate gates box := by
  have hne : gates.isEmpty = false := by
    rw [List.isEmpty_eq_false_iff]
    exact List.ne_nil_of_length_pos hgates
  simp only [crossGate, hne, Bool.false_eq_true, if_false,
    settle_of_lt (settle_cursor_lt hgates p)]

theorem crossGate_fst (hgates : 0 < gates.length) (p : Progress) :
    (p.crossGate gates box).1 = if (p.crossGate gates box).2 then
      (p.settle gates.length).advance gates.length else p.settle gates.length := by
  rw [← crossGate_settle box hgates]
  rcases crossGate_cases box (settle_cursor_lt hgates p) with hcase | hcase <;> rw [hcase] <;> rfl

theorem crossGate_crossings (gates : List (Segment Float)) (p : Progress) :
    (p.crossGate gates box).1.crossings =
      if (p.crossGate gates box).2 then countUp64 p.crossings else p.crossings := by
  rcases Nat.eq_zero_or_pos gates.length with hnone | hgates
  · simp [crossGate_of_no_gates box hnone]
  · rw [crossGate_fst box hgates]
    split_ifs <;> simp [advance_crossings hgates]

@[simp] theorem crossGate_collisions (gates : List (Segment Float)) (p : Progress) :
    (p.crossGate gates box).1.collisions = p.collisions := by
  rcases Nat.eq_zero_or_pos gates.length with hnone | hgates
  · rw [crossGate_of_no_gates box hnone]
  · rw [crossGate_fst box hgates]
    split_ifs <;> simp [advance_collisions hgates]

theorem crossGate_laps (hfit : gates.length < 2 ^ 64) (p : Progress) :
    (p.crossGate gates box).1.laps =
      if (p.crossGate gates box).2 && (p.settle gates.length).cursor.toNat + 1 == gates.length then
        countUp32 p.laps else p.laps := by
  rcases Nat.eq_zero_or_pos gates.length with hnone | hgates
  · rw [crossGate_of_no_gates box hnone]
    rfl
  · have hcursor := settle_cursor_lt hgates p
    rw [crossGate_fst box hgates]
    cases (p.crossGate gates box).2 with
    | false => simp
    | true => simp [advance_laps hcursor (Nat.lt_of_le_of_lt hcursor hfit)]

theorem crossGate_cursor_lt (hgates : 0 < gates.length) (p : Progress) :
    (p.crossGate gates box).1.cursor.toNat < gates.length := by
  rw [crossGate_fst box hgates]
  split_ifs
  · exact advance_cursor_lt hgates
  · exact settle_cursor_lt hgates p

theorem crossGate_cursor_toNat (hcursor : p.cursor.toNat < gates.length)
    (hfit : p.cursor.toNat + 1 < 2 ^ 64) :
    (p.crossGate gates box).1.cursor.toNat =
      (p.cursor.toNat + (p.crossGate gates box).2.toNat) % gates.length := by
  rcases crossGate_cases box hcursor with hcase | hcase <;> rw [hcase]
  · exact advance_cursor_toNat hcursor hfit
  · exact (Nat.mod_eq_of_lt hcursor).symm

theorem crossGate_laps_toNat (hcursor : p.cursor.toNat < gates.length)
    (hfit : p.cursor.toNat + 1 < 2 ^ 64) (hlaps : p.laps.toNat + 1 < 2 ^ 32) :
    (p.crossGate gates box).1.laps.toNat =
      p.laps.toNat + (p.cursor.toNat + (p.crossGate gates box).2.toNat) / gates.length := by
  rcases crossGate_cases box hcursor with hcase | hcase <;> rw [hcase]
  · exact advance_laps_toNat hcursor hfit hlaps
  · exact (congrArg (p.laps.toNat + ·) (Nat.div_eq_of_lt hcursor)).symm

end Progress

namespace Query

/-! ## One query -/

/-- The progress of a racer when its query is tested against the gates. -/
def beforeGate (query : Query) (course : Course Float) (reset : Bool) (p : Progress) : Progress :=
  p.contacted (query.run course reset p).outcome.playerHit reset

theorem crossGate_beforeGate (query : Query) (course : Course Float) (reset : Bool)
    (p : Progress) :
    (query.beforeGate course reset p).crossGate course.gates query.hitbox =
      ((query.run course reset p).progress,
        (query.run course reset p).outcome.checkpointHit) := rfl

variable {course : Course Float} {p : Progress}

theorem beforeGate_cursor_lt (query : Query) (reset : Bool)
    (hcursor : p.cursor.toNat < course.gates.length) :
    (query.beforeGate course reset p).cursor.toNat < course.gates.length :=
  Progress.contacted_cursor_lt hcursor _ reset

/-- A query reports a crossing exactly when a side of its hitbox meets the gate at the cursor,
which is the first gate if the query has just sent the racer back. -/
theorem run_checkpointHit_iff (query : Query) (reset : Bool)
    (hcursor : p.cursor.toNat < course.gates.length) :
    (query.run course reset p).outcome.checkpointHit = true ↔
      ∃ gate, course.gates[(query.beforeGate course reset p).cursor.toNat]? = some gate ∧
        ∃ edge ∈ query.hitbox.edges, edge.intersects gate = true := by
  have hbefore := query.beforeGate_cursor_lt reset hcursor
  have hiff := Progress.crossGate_iff query.hitbox hbefore
  rw [crossGate_beforeGate] at hiff
  simp only [hiff, List.getElem?_eq_getElem hbefore, Option.some.injEq, exists_eq_left']

/-- The progress of a racer when its hitbox is tested against the gate at its cursor. -/
def atGate (query : Query) (course : Course Float) (reset : Bool) (p : Progress) : Progress :=
  (query.beforeGate course reset p).settle course.gates.length

section

variable (query : Query) (course : Course Float) (reset : Bool) (p : Progress)

theorem run_checkpointHit_iff_atGate :
    (query.run course reset p).outcome.checkpointHit = true ↔
      ∃ gate, course.gates[(query.atGate course reset p).cursor.toNat]? = some gate ∧
        query.hitbox.crosses gate = true := by
  rw [atGate, ← Progress.crossGate_iff_settle, crossGate_beforeGate]

theorem run_crossings_toNat : (query.run course reset p).progress.crossings.toNat =
    min (p.crossings.toNat + (query.run course reset p).outcome.checkpointHit.toNat)
      (2 ^ 64 - 1) := by
  have hgate := (query.beforeGate course reset p).crossGate_crossings query.hitbox course.gates
  simp only [crossGate_beforeGate] at hgate
  simp [hgate, beforeGate, countUp64_if_toNat]

theorem run_collisions_toNat : (query.run course reset p).progress.collisions.toNat =
    min (p.collisions.toNat + (query.run course reset p).outcome.playerHit.toNat)
      (2 ^ 64 - 1) := by
  have hgate := (query.beforeGate course reset p).crossGate_collisions query.hitbox course.gates
  simp only [crossGate_beforeGate] at hgate
  simp [hgate, beforeGate, countUp64_if_toNat]

/-- Without gates only a collision that resets moves the cursor. -/
theorem run_cursor_of_no_gates (hnone : course.gates.length = 0) :
    (query.run course reset p).progress.cursor =
      if (query.run course reset p).outcome.playerHit && reset then 0 else p.cursor := by
  have hgate := Progress.crossGate_of_no_gates query.hitbox hnone
    (query.beforeGate course reset p)
  rw [crossGate_beforeGate, Prod.mk.injEq] at hgate
  simp [hgate.1, beforeGate]

theorem atGate_cursor_lt (hgates : 0 < course.gates.length) :
    (query.atGate course reset p).cursor.toNat < course.gates.length :=
  Progress.settle_cursor_lt hgates _

theorem run_cursor_lt (hgates : 0 < course.gates.length) :
    (query.run course reset p).progress.cursor.toNat < course.gates.length := by
  have hgate := (query.beforeGate course reset p).crossGate_cursor_lt query.hitbox hgates
  rwa [crossGate_beforeGate] at hgate

theorem run_laps_toNat (hfit : course.gates.length < 2 ^ 64) :
    (query.run course reset p).progress.laps.toNat =
      min (p.laps.toNat + ((query.run course reset p).outcome.checkpointHit &&
        (query.atGate course reset p).cursor.toNat + 1 == course.gates.length).toNat)
        (2 ^ 32 - 1) := by
  have hgate := (query.beforeGate course reset p).crossGate_laps query.hitbox hfit
  rw [crossGate_beforeGate, ← atGate, beforeGate, Progress.contacted_laps] at hgate
  rw [hgate, countUp32_if_toNat]

end

end Query

end Raceway
