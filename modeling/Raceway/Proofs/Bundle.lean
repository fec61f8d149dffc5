import Raceway.Bundle
import Raceway.Proofs.Json.Nearest
import Raceway.Proofs.Json.Records
import Raceway.Proofs.Layout
/-!
# Records read back

What is written of points, segments, settings, bundles and the progress of a racer is read back as
it was, to the bit, unless a double in it is not finite.
-/

namespace Raceway

open Json

/-! ## Whole texts -/

/-- Whether a reading goes well exactly if some doubles are finite, and then gives a value. -/
def ReadsBack {ε α : Type} (result : Except ε α) (a : α) (doubles : List Float) : Prop :=
  ((∃ b, result = .ok b) ↔ ∀ x ∈ doubles, x.isFinite = true) ∧
    ((∀ x ∈ doubles, x.isFinite = true) → result = .ok a)

theorem readsBack_of_recovers {α : Type} {read : Reader α} {text : List Char} {a : α}
    {doubles : List Float} (h : Recovers read text (doubles.all Float.isFinite) a) :
    ReadsBack (readAll read text) a doubles := by
  have hall := readAll_of_recovers h
  rwa [List.all_eq_true] at hall

section

variable [NumberText]

/-! ## Points and segments -/

namespace Point

/-- The doubles of a point. -/
def doubles (p : Point Float) : List Float :=
  [p.x, p.y]

def entries (p : Point Float) : List (Entry (Point Float)) :=
  [.ofValue "x" true readDouble (writeDouble p.x) p.x.isFinite p.x fun x q => { q with x := x },
   .ofValue "y" true readDouble (writeDouble p.y) p.y.isFinite p.y fun y q => { q with y := y }]

theorem recovers (h : NumberText.Faithful) (p : Point Float) :
    Recovers read p.write (p.doubles.all Float.isFinite) p := by
  have hsound : ∀ e ∈ p.entries, e.Sound := by
    simp only [entries, List.forall_mem_cons]
    exact ⟨Entry.sound_ofValue (by simp [Plain]) (recovers_double h p.x),
      Entry.sound_ofValue (by simp [Plain]) (recovers_double h p.y), by simp⟩
  have hnames : (p.entries.map Entry.name).Nodup := by
    change ["x", "y"].Nodup
    decide
  refine recovers_record "Point" ⟨0, 0⟩ hsound hnames ?_ ?_ ?_ ?_ <;> rfl

theorem recovers_pair (h : NumberText.Faithful) (p : Point Float) :
    Recovers readPair p.writePair (p.doubles.all Float.isFinite) p := by
  have hpair := (Json.recovers_pair h p.x p.y).map fun pair => Point.mk pair.1 pair.2
  rw [← Bool.and_true p.y.isFinite] at hpair
  exact hpair

theorem solid_writePair (p : Point Float) : Solid p.writePair :=
  ⟨'[', _, rfl, by decide⟩

theorem recovers_pairs (h : NumberText.Faithful) (points : List (Point Float)) :
    Recovers (readList readPair) (writeList (points.map writePair))
      ((flat points).all Float.isFinite) points := by
  have hgood : (flat points).all Float.isFinite =
      points.all fun p => p.doubles.all Float.isFinite :=
    List.all_flatMap
  rw [hgood]
  exact recovers_list (fun p _ => p.recovers_pair h) fun p _ => p.solid_writePair

end Point

namespace Segment

def doubles (s : Segment Float) : List Float :=
  s.a.doubles ++ s.b.doubles

def entries (s : Segment Float) : List (Entry (Segment Float)) :=
  [.ofValue "a" true Point.read s.a.write (s.a.doubles.all Float.isFinite) s.a
    fun a t => { t with a := a },
   .ofValue "b" true Point.read s.b.write (s.b.doubles.all Float.isFinite) s.b
    fun b t => { t with b := b }]

theorem recovers (h : NumberText.Faithful) (s : Segment Float) :
    Recovers read s.write (s.doubles.all Float.isFinite) s := by
  have hsound : ∀ e ∈ s.entries, e.Sound := by
    simp only [entries, List.forall_mem_cons]
    exact ⟨Entry.sound_ofValue (by simp [Plain]) (s.a.recovers h),
      Entry.sound_ofValue (by simp [Plain]) (s.b.recovers h), by simp⟩
  have hnames : (s.entries.map Entry.name).Nodup := by
    change ["a", "b"].Nodup
    decide
  refine recovers_record "Segment" ⟨⟨0, 0⟩, ⟨0, 0⟩⟩ hsound hnames ?_ ?_ ?_ ?_
  · rfl
  · rfl
  · simp [entries, Entry.ofValue, doubles]
  · rfl

end Segment

/-! ## Settings and bundles -/

namespace Settings

def doubles (c : Settings Float) : List Float :=
  [c.originX, c.originY, c.width, c.height, c.cellSize]

def entries (c : Settings Float) : List (Entry (Settings Float)) :=
  [.ofValue "origin_x" false readDouble (writeDouble c.originX) c.originX.isFinite c.originX
    fun x d => { d with originX := x },
   .ofValue "origin_y" false readDouble (writeDouble c.originY) c.originY.isFinite c.originY
    fun x d => { d with originY := x },
   .ofValue "width" false readDouble (writeDouble c.width) c.width.isFinite c.width
    fun x d => { d with width := x },
   .ofValue "height" false readDouble (writeDouble c.height) c.height.isFinite c.height
    fun x d => { d with height := x },
   .ofValue "cell_size" false readDouble (writeDouble c.cellSize) c.cellSize.isFinite c.cellSize
    fun x d => { d with cellSize := x },
   .ofValue "reset_on_collision" false readBoolean (writeBoolean c.resetOnCollision) true
    c.resetOnCollision fun b d => { d with resetOnCollision := b }]

theorem recovers (h : NumberText.Faithful) (c : Settings Float) :
    Recovers read c.write (c.doubles.all Float.isFinite) c := by
  have hsound : ∀ e ∈ c.entries, e.Sound := by
    simp only [entries, List.forall_mem_cons]
    exact ⟨Entry.sound_ofValue (by simp [Plain]) (recovers_double h _),
      Entry.sound_ofValue (by simp [Plain]) (recovers_double h _),
      Entry.sound_ofValue (by simp [Plain]) (recovers_double h _),
      Entry.sound_ofValue (by simp [Plain]) (recovers_double h _),
      Entry.sound_ofValue (by simp [Plain]) (recovers_double h _),
      Entry.sound_ofValue (by simp [Plain]) (recovers_boolean _), by simp⟩
  have hnames : (c.entries.map Entry.name).Nodup := by
    change ["origin_x", "origin_y", "width", "height", "cell_size", "reset_on_collision"].Nodup
    decide
  refine recovers_record "TrackConfig" standard hsound hnames ?_ ?_ ?_ ?_ <;> rfl

end Settings

namespace Bundle

/-- The doubles of a bundle. -/
def doubles (b : Bundle) : List Float :=
  Point.flat b.layout.inner ++ (Point.flat b.layout.outer ++
    (Point.flat b.layout.checkpoints ++ b.settings.doubles))

def entries (b : Bundle) : List (Entry Bundle) :=
  let points (name : String) (required : Bool) (ps : List (Point Float))
      (set : List (Point Float) → Layout Float → Layout Float) : Entry Bundle :=
    .ofValue name required (readList Point.readPair) (writeList (ps.map Point.writePair))
      ((Point.flat ps).all Float.isFinite) ps fun ps d => { d with layout := set ps d.layout }
  [points "inner" true b.layout.inner fun ps l => { l with inner := ps },
   points "outer" true b.layout.outer fun ps l => { l with outer := ps },
   points "checkpoints" false b.layout.checkpoints fun ps l => { l with checkpoints := ps },
   .ofValue "config" false Settings.read b.settings.write (b.settings.doubles.all Float.isFinite)
    b.settings fun c d => { d with settings := c }]

theorem recovers (h : NumberText.Faithful) (b : Bundle) :
    Recovers read b.write (b.doubles.all Float.isFinite) b := by
  have hsound : ∀ e ∈ b.entries, e.Sound := by
    simp only [entries, List.forall_mem_cons]
    exact ⟨Entry.sound_ofValue (by simp [Plain]) (Point.recovers_pairs h _),
      Entry.sound_ofValue (by simp [Plain]) (Point.recovers_pairs h _),
      Entry.sound_ofValue (by simp [Plain]) (Point.recovers_pairs h _),
      Entry.sound_ofValue (by simp [Plain]) (b.settings.recovers h), by simp⟩
  have hnames : (b.entries.map Entry.name).Nodup := by
    change ["inner", "outer", "checkpoints", "config"].Nodup
    decide
  refine recovers_record "TrackBundle" blank hsound hnames ?_ ?_ ?_ ?_
  · rfl
  · rfl
  · simp [entries, Entry.ofValue, doubles]
  · rfl

end Bundle

/-! ## The progress of a racer -/

namespace Progress

def entries (p : Progress) : List (Entry Progress) :=
  [.ofValue "cursor" true (readNatural .size (UInt64.size - 1)) (writeNatural p.cursor.toNat) true
    p.cursor.toNat fun n q => { q with cursor := .ofNat n },
   .ofValue "laps" true (readNatural .word32 (UInt32.size - 1)) (writeNatural p.laps.toNat) true
    p.laps.toNat fun n q => { q with laps := .ofNat n },
   .ofValue "crossings" true (readNatural .word64 (UInt64.size - 1))
    (writeNatural p.crossings.toNat) true p.crossings.toNat
    fun n q => { q with crossings := .ofNat n },
   .ofValue "collisions" true (readNatural .word64 (UInt64.size - 1))
    (writeNatural p.collisions.toNat) true p.collisions.toNat
    fun n q => { q with collisions := .ofNat n }]

theorem recovers (p : Progress) : Recovers read p.write true p := by
  have hword64 (expected : Expected) (n : UInt64) :
      Recovers (readNatural expected (UInt64.size - 1)) (writeNatural n.toNat) true n.toNat :=
    recovers_natural expected (Nat.le_sub_one_of_lt n.toNat_lt) (by decide)
  have hword32 (n : UInt32) :
      Recovers (readNatural .word32 (UInt32.size - 1)) (writeNatural n.toNat) true n.toNat :=
    recovers_natural .word32 (Nat.le_sub_one_of_lt n.toNat_lt) (by decide)
  have hsound : ∀ e ∈ p.entries, e.Sound := by
    simp only [entries, List.forall_mem_cons]
    exact ⟨Entry.sound_ofValue (by simp [Plain]) (hword64 .size p.cursor),
      Entry.sound_ofValue (by simp [Plain]) (hword32 p.laps),
      Entry.sound_ofValue (by simp [Plain]) (hword64 .word64 p.crossings),
      Entry.sound_ofValue (by simp [Plain]) (hword64 .word64 p.collisions), by simp⟩
  have hnames : (p.entries.map Entry.name).Nodup := by
    change ["cursor", "laps", "crossings", "collisions"].Nodup
    decide
  refine recovers_record "AgentState" start hsound hnames ?_ ?_ ?_ ?_
  · rfl
  · rfl
  · rfl
  · simp [entries, Entry.ofValue]

end Progress

/-! ## All records -/

theorem Bundle.ofText_eq_ok_iff {text : List Char} {b : Bundle} :
    ofText text = .ok b ↔ readAll read text = .ok b := by
  rw [ofText]
  cases readAll read text with
  | ok c => simp
  | error fault => simp

theorem Bundle.ofText_write (h : NumberText.Faithful) (b : Bundle) :
    ReadsBack (ofText b.write) b b.doubles := by
  have hread := readsBack_of_recovers (b.recovers h)
  simp only [ReadsBack, ofText_eq_ok_iff] at hread ⊢
  exact hread

/-- However doubles are written and read, if a finite one is read back from its text and all others
are written as `null`, the texts of points, segments, settings and bundles are read exactly if all
doubles in them are finite, and then as the same values, zeros with their signs.  The progress of a
racer is always read back as it was. -/
theorem write_reads_back (h : NumberText.Faithful) :
    (∀ p : Point Float, ReadsBack (readAll Point.read p.write) p p.doubles) ∧
      (∀ s : Segment Float, ReadsBack (readAll Segment.read s.write) s s.doubles) ∧
      (∀ c : Settings Float, ReadsBack (readAll Settings.read c.write) c c.doubles) ∧
      (∀ b : Bundle, ReadsBack (Bundle.ofText b.write) b b.doubles) ∧
      ∀ p : Progress, readAll Progress.read p.write = .ok p := by
  refine ⟨fun p => ?_, fun s => ?_, fun c => ?_, fun b => ?_, fun p => ?_⟩
  · exact readsBack_of_recovers (p.recovers h)
  · exact readsBack_of_recovers (s.recovers h)
  · exact readsBack_of_recovers (c.recovers h)
  · exact b.ofText_write h
  · exact (readAll_of_recovers p.recovers).2 rfl

end

section

attribute [local instance] NumberText.nearest

/-- A negative zero, the least positive double and the largest one. -/
def speck : Bundle where
  layout := ⟨[⟨-0, .ofBits 1⟩], [], [⟨0.1, .ofBits 0x7fefffffffffffff⟩]⟩
  settings := ⟨⟨0, 0, 1, 1, 0.3⟩, false⟩

theorem write_reads_back_speck :
    NumberText.Faithful ∧ (∀ x ∈ speck.doubles, x.isFinite = true) ∧
      Bundle.ofText speck.write = .ok speck ∧
      (¬∃ p, readAll Point.read (Point.write ⟨0, 1 / 0⟩) = .ok p) ∧
      readAll Progress.read (Progress.write ⟨0xffffffffffffffff, 7, 0, 1⟩) =
        .ok ⟨0xffffffffffffffff, 7, 0, 1⟩ := by
  have hfinite : ∀ x ∈ speck.doubles, x.isFinite = true :=
    List.all_eq_true.mp (by rfl)
  obtain ⟨hpoint, -, -, hbundle, hprogress⟩ := write_reads_back NumberText.faithful_nearest
  refine ⟨NumberText.faithful_nearest, hfinite, (hbundle speck).2 hfinite, ?_, hprogress _⟩
  rw [(hpoint ⟨0, 1 / 0⟩).1, ← List.all_eq_true]
  decide

end

end Raceway
